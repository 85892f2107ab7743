import Mathlib.Data.List.Forall2
import Mathlib.Data.List.Nodup
import Mathlib.Data.List.Perm.Basic
import Handshake.Proofs.Trace.Reading
import Handshake.Trace.Declaration
set_option autoImplicit false

/-! What the attributes of a declaration make of a record. Every setting is within the width of
its field, and the byte count follows from the burst unless it is set. The other way round, a
record within its widths is declared by its settings, in whatever order they are given. -/

namespace Handshake

structure Transaction.WithinWidths (txn : Transaction) : Prop where
  axiId : txn.axiId < 0x100000000
  address : txn.address < Integer.bound
  length : txn.length < 256
  size : txn.size ≤ 7
  bytes : txn.bytes < Integer.bound
  cache : txn.cache.bits ≤ 15

namespace Trace

theorem find?_eq_some_of_unique {α : Type} {isSought : α → Bool} {list : List α} {sought : α}
    (member : sought ∈ list) (holds : isSought sought = true)
    (unique : ∀ other ∈ list, isSought other = true → other = sought) :
    list.find? isSought = some sought := by
  obtain ⟨found, present⟩ :=
    Option.isSome_iff_exists.mp (List.find?_isSome.mpr ⟨sought, member, holds⟩)
  rw [present, unique found (List.mem_of_find?_eq_some present) (List.find?_some present)]

/-! ### One attribute -/

namespace Setting

def WithinWidth : Setting → Prop
  | .axiId number => number < 0x100000000
  | .address number => number < Integer.bound
  | .length number => number < 256
  | .size number => number ≤ 7
  | .bytes number => number < Integer.bound
  | .cache number => number ≤ 15
  | _ => True

def written : Setting → Attribute
  | .command word => ⟨"cmd".toList, some (.word word.name.toList)⟩
  | .axiId number => ⟨"id".toList, some (.integer (Nat.toDigits 10 number))⟩
  | .address number => ⟨"addr".toList, some (.integer (Nat.toDigits 10 number))⟩
  | .length number => ⟨"len".toList, some (.integer (Nat.toDigits 10 number))⟩
  | .size number => ⟨"size".toList, some (.integer (Nat.toDigits 10 number))⟩
  | .burst word => ⟨"burst".toList, some (.word (burstKeyword word).toList)⟩
  | .bytes number => ⟨"bytes".toList, some (.integer (Nat.toDigits 10 number))⟩
  | .cache number => ⟨"cache".toList, some (.integer (Nat.toDigits 10 number))⟩
  | .domain word => ⟨"domain".toList, some (.word (domainKeyword word).toList)⟩
  | .snoop word => ⟨"snoop".toList, some (.word word.name.toList)⟩
  | .barrier word => ⟨"bar".toList, some (.word (barrierKeyword word).toList)⟩
  | .snoopOnly => ⟨"snoop_only".toList, none⟩

end Setting

private theorem integerOf_eq_ok_iff {maximum number : Nat} {value : Option Value} :
    integerOf maximum value = .ok number ↔
      ∃ literal, value = some (.integer literal) ∧ Integer.parse literal = .ok number ∧
        number ≤ maximum := by
  constructor
  · intro read
    unfold integerOf at read
    split at read
    · rename_i literal
      split at read
      · cases read
      · rename_i parsed
        split at read
        · rename_i bounded
          cases read
          exact ⟨literal, rfl, parsed, bounded⟩
        · cases read
    · cases read
    · cases read
  · rintro ⟨literal, rfl, parsed, bounded⟩
    simp only [integerOf, parsed, if_pos bounded]

private theorem withinWidth_of_settingOf {given : Attribute} {setting : Setting}
    (read : settingOf given = .ok setting) : setting.WithinWidth := by
  simp only [settingOf] at read
  split at read
  case h_12 =>
    split at read
    · cases read
      trivial
    · cases read
  case h_13 => cases read
  all_goals
    obtain ⟨found, taken, rfl⟩ := map_eq_ok_iff.mp read
  case h_2 | h_3 | h_4 | h_5 | h_7 | h_8 =>
    obtain ⟨literal, -, -, bounded⟩ := integerOf_eq_ok_iff.mp taken
    simp only [Setting.WithinWidth, Integer.bound]
    omega
  all_goals trivial

private theorem name_of_settingOf {given : Attribute} {setting : Setting}
    (read : settingOf given = .ok setting) : given.name = setting.written.name := by
  have named : ∀ {name : String}, String.ofList given.name = name → given.name = name.toList := by
    rintro _ rfl
    exact String.toList_ofList.symm
  simp only [settingOf] at read
  split at read
  case h_12 is =>
    split at read
    · cases read
      exact named is
    · cases read
  case h_13 => cases read
  all_goals
    rename_i is
    obtain ⟨found, -, rfl⟩ := map_eq_ok_iff.mp read
    exact named is

private theorem nodup_folded_names :
    (Snoop.all.map (fun snoop => Snoop.folded snoop.name)).Nodup := by
  decide +kernel

private theorem snoopOf_name (snoop : Snoop) :
    snoopOf (some (.word snoop.name.toList)) = .ok snoop := by
  have member : snoop ∈ Snoop.all := by
    cases snoop <;> decide
  have named : Snoop.ofName? snoop.name = some snoop := by
    refine find?_eq_some_of_unique member (beq_self_eq_true _) (fun other among same => ?_)
    exact List.inj_on_of_nodup_map nodup_folded_names among member (beq_iff_eq.mp same)
  simp only [snoopOf, wordOf, bind, Except.bind, String.ofList_toList, named]

/-! ### Decimal literals -/

private theorem valueFrom?_eq_ofDigitChars {digits : List Char}
    (decimal : ∀ char ∈ digits, char.isDigit = true) (value : Nat) :
    Integer.valueFrom? 10 value digits = some (Nat.ofDigitChars 10 digits value) := by
  induction digits generalizing value with
  | nil => rfl
  | cons char rest ih =>
      have digit := decimal char List.mem_cons_self
      have small : char.toNat - '0'.toNat < 10 := by
        have bounds := Char.isDigit_iff_toNat.mp digit
        have last : '9'.toNat = '0'.toNat + 9 := rfl
        omega
      rw [Integer.valueFrom?, Integer.digitValue?, if_pos digit, Option.filter_some,
        if_pos (decide_eq_true small), Option.bind_some,
        ih (fun other member => decimal other (List.mem_cons_of_mem _ member))]
      rfl

theorem baseAndDigits_of_digits {digits : List Char}
    (decimal : ∀ char ∈ digits, char.isDigit = true) :
    Integer.baseAndDigits digits = (10, digits) := by
  unfold Integer.baseAndDigits
  split
  case h_5 => rfl
  -- the second character of a marked literal is no digit
  all_goals
    have mark := decimal _ (List.mem_cons_of_mem _ List.mem_cons_self)
    exact absurd mark (by decide)

theorem parse_toDigits {number : Nat} (fits : number < Integer.bound) :
    Integer.parse (Nat.toDigits 10 number) = .ok number := by
  have decimal : ∀ char ∈ Nat.toDigits 10 number, char.isDigit = true :=
    fun _ member => Nat.isDigit_of_mem_toDigits (by decide) (by decide) member
  have bare : (Nat.toDigits 10 number).filter (· ≠ '_') = Nat.toDigits 10 number :=
    List.filter_eq_self.mpr (fun char member =>
      decide_eq_true (fun same => Nat.underscore_not_in_toDigits (same ▸ member)))
  simp only [Integer.parse, bare, baseAndDigits_of_digits decimal, if_neg Nat.toDigits_ne_nil,
    valueFrom?_eq_ofDigitChars decimal, Nat.ofDigitChars_ten_toDigits]
  exact if_pos fits

/-- A setting within its width is what its attribute sets. -/
theorem settingOf_written {setting : Setting} (fits : setting.WithinWidth) :
    settingOf setting.written = .ok setting := by
  have integer : ∀ (set : Nat → Setting) maximum number,
      number ≤ maximum → maximum < Integer.bound →
      (integerOf maximum (some (.integer (Nat.toDigits 10 number)))).map set =
        .ok (set number) := by
    intro set maximum number bounded wide
    have parsed := parse_toDigits (Nat.lt_of_le_of_lt bounded wide)
    exact map_eq_ok_iff.mpr ⟨number, integerOf_eq_ok_iff.mpr ⟨_, rfl, parsed, bounded⟩, rfl⟩
  cases setting with
  | command word => cases word <;> rfl
  | burst word => cases word <;> rfl
  | domain word => cases word <;> rfl
  | barrier word => cases word <;> rfl
  | snoop word => exact map_eq_ok_iff.mpr ⟨word, snoopOf_name word, rfl⟩
  | snoopOnly => rfl
  | axiId number => exact integer .axiId _ number (Nat.le_of_lt_succ fits) (by decide)
  | address number => exact integer .address _ number (Nat.le_of_lt_succ fits) (by decide)
  | length number => exact integer .length _ number (Nat.le_of_lt_succ fits) (by decide)
  | size number => exact integer .size _ number fits (by decide)
  | bytes number => exact integer .bytes _ number (Nat.le_of_lt_succ fits) (by decide)
  | cache number => exact integer .cache _ number fits (by decide)

/-! ### All attributes -/

private theorem settingsFrom_eq_ok_iff {seen : List (List Char)} {index : Nat}
    {given : List Attribute}
    {settings : List Setting} :
    settingsFrom seen index given = .ok settings ↔
      given.map settingOf = settings.map .ok ∧
        (given.map Attribute.name).Nodup ∧ ∀ attr ∈ given, attr.name ∉ seen := by
  induction given generalizing seen index settings with
  | nil =>
      rw [settingsFrom, Except.ok.injEq, List.map_nil, List.nil_eq, List.nil_eq,
        List.map_eq_nil_iff]
      exact ⟨fun none => ⟨none, List.nodup_nil, fun _ member => nomatch member⟩, And.left⟩
  | cons first rest ih =>
      rw [settingsFrom]
      constructor
      · intro read
        split at read
        · cases read
        · rename_i unseen
          split at read
          · cases read
          · rename_i setting sets
            obtain ⟨later, others, rfl⟩ := map_eq_ok_iff.mp read
            obtain ⟨each, distinct, apart⟩ := ih.mp others
            refine ⟨?_, List.nodup_cons.mpr ⟨?_, distinct⟩, ?_⟩
            · rw [List.map_cons, List.map_cons, sets, each]
            · intro member
              obtain ⟨other, among, same⟩ := List.mem_map.mp member
              exact apart other among (same ▸ List.mem_cons_self)
            · intro attr member
              rcases List.mem_cons.mp member with rfl | among
              · exact unseen
              · exact fun inside => apart attr among (List.mem_cons_of_mem _ inside)
      · rintro ⟨each, distinct, apart⟩
        obtain ⟨setting, later, rfl, sets, others⟩ := List.map_eq_cons_iff.mp each.symm
        obtain ⟨single, remaining⟩ := List.nodup_cons.mp distinct
        rw [if_neg (apart first List.mem_cons_self), ← sets]
        refine map_eq_ok_iff.mpr ⟨later, ih.mpr ⟨others.symm, remaining, ?_⟩, rfl⟩
        intro attr among inside
        rcases List.mem_cons.mp inside with same | earlier
        · exact single (List.mem_map.mpr ⟨attr, among, same⟩)
        · exact apart attr (List.mem_cons_of_mem _ among) earlier

private theorem map_settingOf_eq_iff {given : List Attribute} {settings : List Setting} :
    given.map settingOf = settings.map .ok ↔
      List.Forall₂ (fun attr setting => settingOf attr = .ok setting) given settings := by
  rw [← List.forall₂_eq_eq_eq, List.forall₂_map_left_iff, List.forall₂_map_right_iff]

private theorem settingsFrom_perm {given other : List Attribute} {settings : List Setting}
    (ordered : other.Perm given) (read : settingsFrom [] 0 given = .ok settings) :
    ∃ reordered, settingsFrom [] 0 other = .ok reordered ∧ reordered.Perm settings := by
  obtain ⟨each, distinct, -⟩ := settingsFrom_eq_ok_iff.mp read
  obtain ⟨reordered, inOrder, same⟩ :=
    List.perm_comp_forall₂ ordered (map_settingOf_eq_iff.mp each)
  have names := (ordered.map Attribute.name).nodup_iff.mpr distinct
  exact ⟨reordered, settingsFrom_eq_ok_iff.mpr
    ⟨map_settingOf_eq_iff.mpr inOrder, names, fun _ _ => List.not_mem_nil⟩, same⟩

private theorem nodup_written_of_settingsFrom {given : List Attribute} {settings : List Setting}
    (read : settingsFrom [] 0 given = .ok settings) :
    (settings.map (fun setting => setting.written.name)).Nodup := by
  obtain ⟨each, distinct, -⟩ := settingsFrom_eq_ok_iff.mp read
  have names : settings.map (fun setting => setting.written.name) = given.map Attribute.name := by
    rw [← List.forall₂_eq_eq_eq, List.forall₂_map_left_iff, List.forall₂_map_right_iff]
    have paired := (map_settingOf_eq_iff.mp each).flip
    exact paired.imp (fun _ _ made => (name_of_settingOf made).symm)
  rw [names]
  exact distinct

private theorem exists_settingOf_of_mem {given : List Attribute} {settings : List Setting}
    (read : settingsFrom [] 0 given = .ok settings) {setting : Setting}
    (member : setting ∈ settings) : ∃ attr ∈ given, settingOf attr = .ok setting := by
  refine List.mem_map.mp ?_
  rw [(settingsFrom_eq_ok_iff.mp read).1]
  exact List.mem_map_of_mem member

theorem declare_eq_ok_iff {uid : TxnId} {label : List Char} {given : List Attribute}
    {record : Transaction} :
    declare uid label given = .ok record ↔
      ∃ settings command, settingsFrom [] 0 given = .ok settings ∧
        (Draft.ofSettings settings).command = some command ∧
        (Draft.ofSettings settings).record uid command = record := by
  unfold declare
  cases read : settingsFrom [] 0 given with
  | error fault => simp [bind, Except.bind]
  | ok settings =>
      cases drafted : (Draft.ofSettings settings).command with
      | none => simp [bind, Except.bind, drafted]
      | some command => simp [bind, Except.bind, drafted]

/-! ### The order of attributes -/

private theorem Draft.apply_comm {first second : Setting}
    (different : first.written.name ≠ second.written.name) (draft : Draft) :
    (draft.apply first).apply second = (draft.apply second).apply first := by
  cases first <;> cases second <;> first | rfl | exact absurd rfl different

private theorem Draft.ofSettings_perm {settings reordered : List Setting}
    (distinct : (settings.map (fun setting => setting.written.name)).Nodup)
    (ordered : reordered.Perm settings) :
    Draft.ofSettings reordered = Draft.ofSettings settings := by
  refine ordered.foldl_eq' (fun first inside second among draft => ?_) _
  by_cases same : first.written.name = second.written.name
  · rw [List.inj_on_of_nodup_map distinct (ordered.subset inside) (ordered.subset among) same]
  · exact Draft.apply_comm same draft

/-- What is declared does not depend on the order of the attributes. -/
theorem declare_perm {uid : TxnId} {label : List Char} {given other : List Attribute}
    {record : Transaction} (ordered : other.Perm given)
    (declared : declare uid label given = .ok record) :
    declare uid label other = .ok record := by
  obtain ⟨settings, command, read, drafted, same⟩ := declare_eq_ok_iff.mp declared
  obtain ⟨reordered, others, settingsOrdered⟩ := settingsFrom_perm ordered read
  rw [← Draft.ofSettings_perm (nodup_written_of_settingsFrom read) settingsOrdered] at drafted same
  exact declare_eq_ok_iff.mpr ⟨reordered, command, others, drafted, same⟩

/-! ### What attributes make of a record -/

/-- A record has in its field what a setting says. -/
def Setting.HoldsIn (record : Transaction) : Setting → Prop
  | .command word => record.command = word
  | .axiId number => record.axiId = number
  | .address number => record.address = number
  | .length number => record.length = number
  | .size number => record.size = number
  | .burst word => record.burst = word
  | .bytes number => record.bytes = number
  | .cache number => record.cache = ⟨number⟩
  | .domain word => record.domain = word
  | .snoop word => record.snoop = word
  | .barrier word => record.barrier = word
  | .snoopOnly => record.snoopOnly = true

def defaultsOf (record : Transaction) : List Setting :=
  [.axiId 0, .address 0, .length 0, .size 0, .burst .incr, .bytes record.burstBytes, .cache 0,
    .domain .nonShareable, .snoop (Transaction.defaultSnoop record.command),
    .barrier .respectBarrier]

/-- What a record says is what the attributes say, wherever they stand, and the default for the
others. -/
structure Declares (given : List Attribute) (record : Transaction) : Prop where
  command : "cmd".toList ∈ given.map Attribute.name
  set : ∀ attr ∈ given, ∃ setting, settingOf attr = .ok setting ∧ setting.HoldsIn record
  unset : ∀ setting ∈ defaultsOf record, setting.written.name ∉ given.map Attribute.name →
    setting.HoldsIn record
  flag : record.snoopOnly = true → "snoop_only".toList ∈ given.map Attribute.name

def Setting.AbsentFrom (draft : Draft) : Setting → Prop
  | .command _ => draft.command = none
  | .axiId _ => draft.axiId = none
  | .address _ => draft.address = none
  | .length _ => draft.length = none
  | .size _ => draft.size = none
  | .burst _ => draft.burst = none
  | .bytes _ => draft.bytes = none
  | .cache _ => draft.cache = none
  | .domain _ => draft.domain = none
  | .snoop _ => draft.snoop = none
  | .barrier _ => draft.barrier = none
  | .snoopOnly => draft.snoopOnly = false

section

variable {draft : Draft} {setting other : Setting} {settings : List Setting} {uid : TxnId}
  {command : Command}

private theorem Setting.AbsentFrom.apply (absent : setting.AbsentFrom draft)
    (different : setting.written.name ≠ other.written.name) :
    setting.AbsentFrom (draft.apply other) := by
  cases setting <;> cases other <;> first | exact absent | exact absurd rfl different

private theorem absentFrom_ofSettings
    (different : ∀ other ∈ settings, setting.written.name ≠ other.written.name) :
    setting.AbsentFrom (Draft.ofSettings settings) := by
  refine List.foldlRecOn (motive := fun draft => Setting.AbsentFrom draft setting) settings
    Draft.apply ?_ (fun _ absent other member => ?_)
  · cases setting <;> exact rfl
  · exact Setting.AbsentFrom.apply absent (different other member)

private theorem holdsIn_record_apply (commanded : (draft.apply setting).command = some command) :
    setting.HoldsIn ((draft.apply setting).record uid command) := by
  cases setting with
  | command found => exact (Option.some.inj commanded).symm
  | _ => rfl

private theorem holdsIn_record_of_mem
    (distinct : (settings.map (fun one => one.written.name)).Nodup)
    (member : setting ∈ settings)
    (commanded : (Draft.ofSettings settings).command = some command) :
    setting.HoldsIn ((Draft.ofSettings settings).record uid command) := by
  -- the setting is made the last, behind which nothing can change its field
  obtain ⟨before, after, rfl⟩ := List.mem_iff_append.mp member
  have ordered : (before ++ after ++ [setting]).Perm (before ++ setting :: after) :=
    (List.perm_append_singleton _ _).trans List.perm_middle.symm
  rw [← Draft.ofSettings_perm distinct ordered, Draft.ofSettings, List.foldl_append]
    at commanded ⊢
  exact holdsIn_record_apply commanded

private theorem holdsIn_record_of_absentFrom
    (default : setting ∈ defaultsOf (draft.record uid command))
    (absent : setting.AbsentFrom draft) : setting.HoldsIn (draft.record uid command) := by
  simp only [defaultsOf, List.mem_cons, List.not_mem_nil, or_false] at default
  rcases default with rfl | rfl | rfl | rfl | rfl | rfl | rfl | rfl | rfl | rfl
  all_goals
    simp only [Setting.AbsentFrom] at absent
    simp only [Setting.HoldsIn, Draft.record, absent, Option.getD_none]
    rfl

end

/-! ### What is declared is within its widths -/

structure Draft.WithinWidths (draft : Draft) : Prop where
  axiId : ∀ number ∈ draft.axiId, number < 0x100000000
  address : ∀ number ∈ draft.address, number < Integer.bound
  length : ∀ number ∈ draft.length, number < 256
  size : ∀ number ∈ draft.size, number ≤ 7
  bytes : ∀ number ∈ draft.bytes, number < Integer.bound
  cache : ∀ number ∈ draft.cache, number ≤ 15

private theorem Draft.WithinWidths.apply {draft : Draft} {setting : Setting}
    (drafted : draft.WithinWidths)
    (fits : setting.WithinWidth) : (draft.apply setting).WithinWidths := by
  cases setting with
  | axiId number => exact { drafted with axiId := by rintro _ ⟨⟩; exact fits }
  | address number => exact { drafted with address := by rintro _ ⟨⟩; exact fits }
  | length number => exact { drafted with length := by rintro _ ⟨⟩; exact fits }
  | size number => exact { drafted with size := by rintro _ ⟨⟩; exact fits }
  | bytes number => exact { drafted with bytes := by rintro _ ⟨⟩; exact fits }
  | cache number => exact { drafted with cache := by rintro _ ⟨⟩; exact fits }
  | _ => exact { drafted with }

private theorem Draft.withinWidths_ofSettings {settings : List Setting}
    (fit : ∀ setting ∈ settings, setting.WithinWidth) :
    (Draft.ofSettings settings).WithinWidths :=
  List.foldlRecOn settings Draft.apply (by constructor <;> rintro _ ⟨⟩)
    (fun _ drafted setting member => drafted.apply (fit setting member))

private theorem Draft.withinWidths_record {draft : Draft} (drafted : draft.WithinWidths)
    (uid : TxnId)
    (command : Command) : (draft.record uid command).WithinWidths := by
  have getD_of : ∀ {bounded : Nat → Prop} {given : Option Nat} {plain : Nat},
      (∀ number ∈ given, bounded number) → bounded plain → bounded (given.getD plain) := by
    intro bounded given plain each otherwise
    cases given with
    | none => exact otherwise
    | some number => exact each number rfl
  have length : draft.length.getD 0 < 256 := getD_of drafted.length (by decide)
  have size : draft.size.getD 0 ≤ 7 := getD_of drafted.size (by decide)
  have burst : 2 ^ draft.size.getD 0 * (draft.length.getD 0 + 1) < Integer.bound :=
    calc 2 ^ draft.size.getD 0 * (draft.length.getD 0 + 1)
      _ ≤ 2 ^ 7 * 256 := Nat.mul_le_mul (Nat.pow_le_pow_right (by decide) size) length
      _ < Integer.bound := by decide
  exact
    { axiId := getD_of drafted.axiId (Nat.succ_pos _)
      address := getD_of drafted.address (Nat.succ_pos _)
      length
      size
      bytes := getD_of drafted.bytes burst
      cache := getD_of drafted.cache (Nat.zero_le 15) }

section

variable {uid : TxnId} {label : List Char} {given : List Attribute} {record : Transaction}

theorem withinWidths_of_declare (declared : declare uid label given = .ok record) :
    record.WithinWidths := by
  obtain ⟨settings, command, read, -, rfl⟩ := declare_eq_ok_iff.mp declared
  refine Draft.withinWidths_record (Draft.withinWidths_ofSettings ?_) uid command
  intro setting member
  obtain ⟨attr, -, sets⟩ := exists_settingOf_of_mem read member
  exact withinWidth_of_settingOf sets

theorem declares_of_declare (declared : declare uid label given = .ok record) :
    Declares given record := by
  obtain ⟨settings, command, read, commanded, rfl⟩ := declare_eq_ok_iff.mp declared
  have distinct := nodup_written_of_settingsFrom read
  have named : ∀ setting : Setting, setting.written.name ∉ given.map Attribute.name →
      ∀ other ∈ settings, setting.written.name ≠ other.written.name := by
    intro setting absent other member same
    obtain ⟨attr, among, sets⟩ := exists_settingOf_of_mem read member
    exact absent (List.mem_map.mpr ⟨attr, among, (name_of_settingOf sets).trans same.symm⟩)
  refine ⟨?_, ?_, ?_, ?_⟩
  · by_contra absent
    have none := absentFrom_ofSettings (named (.command command) absent)
    cases commanded.symm.trans none
  · intro attr member
    have among := List.mem_map_of_mem (f := settingOf) member
    rw [(settingsFrom_eq_ok_iff.mp read).1] at among
    obtain ⟨setting, made, sets⟩ := List.mem_map.mp among
    exact ⟨setting, sets.symm, holdsIn_record_of_mem distinct made commanded⟩
  · intro setting default absent
    exact holdsIn_record_of_absentFrom default (absentFrom_ofSettings (named setting absent))
  · intro flagged
    by_contra absent
    have none := absentFrom_ofSettings (named .snoopOnly absent)
    cases flagged.symm.trans none

theorem bytes_of_declare (declared : declare uid label given = .ok record)
    (unset : "bytes".toList ∉ given.map Attribute.name) : record.bytes = record.burstBytes :=
  (declares_of_declare declared).unset (.bytes record.burstBytes) (by simp [defaultsOf]) unset

end

/-! ### A record is declared by its settings -/

/-- The settings that say all of a record. -/
def settingsOf (record : Transaction) : List Setting :=
  [.command record.command, .axiId record.axiId, .address record.address, .length record.length,
    .size record.size, .burst record.burst, .bytes record.bytes, .cache record.cache.bits,
    .domain record.domain, .snoop record.snoop, .barrier record.barrier] ++
    if record.snoopOnly then [.snoopOnly] else []

private theorem withinWidth_settingsOf {record : Transaction} (fits : record.WithinWidths) :
    ∀ setting ∈ settingsOf record, setting.WithinWidth := by
  have flag : ∀ setting ∈ (if record.snoopOnly then [Setting.snoopOnly] else []),
      setting.WithinWidth := by
    cases record.snoopOnly with
    | false => exact fun _ none => nomatch none
    | true => exact List.forall_mem_singleton.mpr trivial
  simp only [settingsOf, List.forall_mem_append, List.forall_mem_cons]
  exact ⟨⟨trivial, fits.axiId, fits.address, fits.length, fits.size, trivial, fits.bytes,
    fits.cache, trivial, trivial, trivial, fun _ none => nomatch none⟩, flag⟩

private theorem nodup_names_settingsOf (record : Transaction) :
    ((settingsOf record).map (fun setting => setting.written.name)).Nodup := by
  have names : (settingsOf record).map (fun setting => setting.written.name) =
      ["cmd", "id", "addr", "len", "size", "burst", "bytes", "cache", "domain", "snoop",
        "bar"].map String.toList ++ if record.snoopOnly then ["snoop_only".toList] else [] := by
    unfold settingsOf
    cases record.snoopOnly <;> rfl
  rw [names]
  cases record.snoopOnly <;> decide

private theorem record_settingsOf (record : Transaction) (uid : TxnId) :
    (Draft.ofSettings (settingsOf record)).command = some record.command ∧
      (Draft.ofSettings (settingsOf record)).record uid record.command = { record with uid } := by
  cases record with
  | mk _ _ _ _ _ _ _ _ _ _ _ _ snoopOnly => cases snoopOnly <;> exact ⟨rfl, rfl⟩

theorem declare_written {settings : List Setting} {record : Transaction}
    (ordered : settings.Perm (settingsOf record)) (fits : record.WithinWidths) (uid : TxnId)
    (label : List Char) :
    declare uid label (settings.map Setting.written) = .ok { record with uid } := by
  obtain ⟨command, same⟩ := record_settingsOf record uid
  rw [← Draft.ofSettings_perm (nodup_names_settingsOf record) ordered] at command same
  refine declare_eq_ok_iff.mpr ⟨settings, record.command, ?_, command, same⟩
  refine settingsFrom_eq_ok_iff.mpr ⟨?_, ?_, fun _ _ => List.not_mem_nil⟩
  · rw [List.map_map]
    refine List.map_congr_left (fun setting member => settingOf_written ?_)
    exact withinWidth_settingsOf fits setting (ordered.subset member)
  · rw [List.map_map]
    exact (ordered.map _).nodup_iff.mpr (nodup_names_settingsOf record)

end Trace
end Handshake
