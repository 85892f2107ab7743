import Handshake.Proofs.Trace
import Handshake.Proofs.Trace.Written
set_option autoImplicit false

/-! Every trace can be written, and is read back from what is written: one line an event, where
the first mention of a label carries the attributes of its record. -/

namespace Handshake.Trace

/-- An event as it is written: of which transaction, its label says. -/
structure Mention where
  time : Nat
  direction : Direction
  phase : Phase
  label : List Char

def labelsOf (mentions : List Mention) : List (List Char) :=
  (mentions.map Mention.label).eraseDups

/-- A trace to be written: its events in order, and for each label the record, and the order in
which its attributes are written. -/
structure Script where
  mentions : List Mention
  record : List Char → Transaction
  settings : List Char → List Setting
  ordered : (mentions.map Mention.time).Pairwise (· ≤ ·)
  timely : ∀ mention ∈ mentions, mention.time < Integer.bound
  labels : ∀ mention ∈ mentions, Spells isLabelPart mention.label
  widths : ∀ mention ∈ mentions, (record mention.label).WithinWidths
  complete : ∀ mention ∈ mentions,
    (settings mention.label).Perm (settingsOf (record mention.label))

namespace Script

variable (script : Script)

/-! ### What is written -/

/-- Whether a label is not mentioned before the event of a given index. -/
def introduces (index : Nat) (label : List Char) : Bool :=
  !((script.mentions.take index).map Mention.label).contains label

def statement (index : Nat) (mention : Mention) : Statement where
  time := Nat.toDigits 10 mention.time
  direction := mention.direction
  phase := mention.phase.name.toList
  label := mention.label
  attributes :=
    if script.introduces index mention.label then
      (script.settings mention.label).map Setting.written
    else []

def text : List Char := (script.mentions.mapIdx script.statement).flatMap Statement.text

/-! ### What is to be read -/

def uid (label : List Char) : TxnId := ⟨(labelsOf script.mentions).idxOf label⟩

def declaration (label : List Char) : Declared where
  label := label
  record := { script.record label with uid := script.uid label }

def event (index : Nat) (mention : Mention) : Event where
  line := index + 1
  time := mention.time
  direction := mention.direction
  phase := mention.phase
  record := { script.record mention.label with uid := script.uid mention.label }
  declares := script.introduces index mention.label

def trace : Trace where
  events := script.mentions.mapIdx script.event
  declared := (labelsOf script.mentions).map script.declaration

end Script

/-! ### Labels -/

section

variable {mentions before rest : List Mention} {mention : Mention} {label : List Char}

private theorem mem_labelsOf : label ∈ labelsOf mentions ↔ label ∈ mentions.map Mention.label := by
  rw [labelsOf, List.mem_eraseDups]

private theorem labelsOf_prefix (before rest : List Mention) :
    labelsOf before <+: labelsOf (before ++ rest) := by
  rw [labelsOf, labelsOf, List.map_append, List.eraseDups_append]
  exact List.prefix_append _ _

private theorem labelsOf_append_singleton (before : List Mention) (mention : Mention) :
    labelsOf (before ++ [mention]) =
      labelsOf before ++ ([mention.label].removeAll (before.map Mention.label)).eraseDups := by
  rw [labelsOf, labelsOf, List.map_append, List.eraseDups_append, List.map_singleton]

private theorem labelsOf_of_mem (known : mention.label ∈ labelsOf before) :
    labelsOf (before ++ [mention]) = labelsOf before := by
  have none : [mention.label].removeAll (before.map Mention.label) = [] :=
    List.filter_cons_of_neg (by simpa using mem_labelsOf.mp known)
  rw [labelsOf_append_singleton, none]
  exact List.append_nil _

private theorem labelsOf_of_not_mem (new : mention.label ∉ labelsOf before) :
    labelsOf (before ++ [mention]) = labelsOf before ++ [mention.label] := by
  have stays : [mention.label].removeAll (before.map Mention.label) = [mention.label] :=
    List.filter_cons_of_pos (by simpa using mt mem_labelsOf.mpr new)
  rw [labelsOf_append_singleton, stays]
  rfl

private theorem find?_declaration (script : Script) (known : label ∈ labelsOf mentions) :
    ((labelsOf mentions).map script.declaration).find? (fun entry => entry.label = label) =
      some (script.declaration label) := by
  refine find?_eq_some_of_unique (List.mem_map_of_mem known) (decide_eq_true rfl) ?_
  intro other among same
  obtain ⟨name, -, rfl⟩ := List.mem_map.mp among
  rw [show name = label from of_decide_eq_true same]

end

/-! ### Line by line -/

namespace Script

variable {script : Script} {before rest : List Mention} {mention : Mention}
  (split : script.mentions = before ++ mention :: rest)

include split

private theorem introduces_iff :
    script.introduces before.length mention.label = true ↔ mention.label ∉ labelsOf before := by
  rw [introduces, mem_labelsOf, split, List.take_left]
  simp

private theorem uid_of_not_mem (new : mention.label ∉ labelsOf before) :
    script.uid mention.label = ⟨(labelsOf before).length⟩ := by
  obtain ⟨later, labels⟩ := labelsOf_prefix (before ++ [mention]) rest
  rw [labelsOf_of_not_mem new, List.append_assoc, List.append_assoc] at labels
  rw [uid, split, ← List.singleton_append, ← labels, List.idxOf_append, if_neg new,
    List.singleton_append, List.idxOf_cons_self, Nat.zero_add]

private theorem recordOf_statement :
    recordOf ((labelsOf before).map script.declaration) mention.label
        (script.statement before.length mention).attributes =
      .ok ((script.event before.length mention).record,
        script.introduces before.length mention.label) := by
  have member : mention ∈ script.mentions := split ▸ List.mem_append_cons_self
  rw [recordOf_eq_ok_iff]
  cases first : script.introduces before.length mention.label with
  | false =>
      have known : mention.label ∈ labelsOf before := by
        rw [← Decidable.not_not (p := mention.label ∈ labelsOf before), ← introduces_iff split,
          first]
        exact Bool.false_ne_true
      exact .inl ⟨rfl, if_neg (by rw [first]; exact Bool.false_ne_true),
        script.declaration mention.label, rfl, find?_declaration script known⟩
  | true =>
      have new := (introduces_iff split).mp first
      have attributes : (script.statement before.length mention).attributes =
        (script.settings mention.label).map Setting.written := if_pos first
      rw [attributes]
      refine .inr ⟨rfl, ?_, ?_, ?_⟩
      · intro empty
        have none := (script.complete mention member).length_eq
        rw [List.map_eq_nil_iff.mp empty] at none
        cases none
      · intro entry among same
        obtain ⟨label, inside, rfl⟩ := List.mem_map.mp among
        exact new (same ▸ inside)
      · rw [List.length_map, ← uid_of_not_mem split new]
        exact declare_written (script.complete mention member) (script.widths mention member) _ _

private theorem add_statement {progress : Progress}
    (declared : progress.declared = (labelsOf before).map script.declaration)
    (past : progress.lastTime ≤ mention.time) :
    progress.add (before.length + 1) (script.statement before.length mention) =
      .ok ⟨progress.events ++ [script.event before.length mention],
        (labelsOf (before ++ [mention])).map script.declaration, mention.time⟩ := by
  have member : mention ∈ script.mentions := split ▸ List.mem_append_cons_self
  have timed : timeOf progress.lastTime (Nat.toDigits 10 mention.time) = .ok mention.time :=
    timeOf_eq_ok_iff.mpr ⟨parse_toDigits (script.timely mention member), past⟩
  have phased : phaseOf mention.phase.name.toList = .ok mention.phase := by
    cases mention.phase <;> rfl
  have recorded := recordOf_statement split
  rw [← declared] at recorded
  refine Progress.add_eq_ok_iff.mpr ⟨_, _, _, _, timed, phased, recorded, ?_⟩
  have labels : (if script.introduces before.length mention.label then
      (labelsOf before).map script.declaration ++ [script.declaration mention.label]
        else (labelsOf before).map script.declaration) =
      (labelsOf (before ++ [mention])).map script.declaration := by
    by_cases known : mention.label ∈ labelsOf before
    · rw [if_neg (mt (introduces_iff split).mp (not_not_intro known)), labelsOf_of_mem known]
    · rw [if_pos ((introduces_iff split).mpr known), labelsOf_of_not_mem known, List.map_append,
        List.map_singleton]
  rw [← labels, declared]
  rfl

end Script

private theorem addAll_statements (script : Script) (text : List Char) (before rest : List Mention)
    (split : script.mentions = before ++ rest) (progress : Progress)
    (declared : progress.declared = (labelsOf before).map script.declaration)
    (past : ∀ mention ∈ rest, progress.lastTime ≤ mention.time)
    (ordered : (rest.map Mention.time).Pairwise (· ≤ ·)) {placed : List Placed}
    (statements : placed.map Placed.statement =
      rest.mapIdx (fun index mention => script.statement (before.length + index) mention))
    (lines : placed.map Placed.line = List.range' (before.length + 1) rest.length) :
    ∃ final, addAll text progress placed = .ok final ∧
      final.events = progress.events ++
        rest.mapIdx (fun index mention => script.event (before.length + index) mention) ∧
      final.declared = (labelsOf script.mentions).map script.declaration := by
  -- on the mentions that are left: what is declared depends on those before them only
  induction rest generalizing before progress placed with
  | nil =>
      rw [List.mapIdx_nil, List.map_eq_nil_iff] at statements
      subst statements
      rw [List.append_nil] at split
      exact ⟨progress, rfl, (List.append_nil _).symm, split ▸ declared⟩
  | cons mention others ih =>
      rw [List.mapIdx_cons, List.map_eq_cons_iff] at statements
      obtain ⟨one, remaining, rfl, first, later⟩ := statements
      obtain ⟨line, lines⟩ := List.cons.inj lines
      obtain ⟨ahead, orderedLater⟩ := List.pairwise_cons.mp ordered
      have added := Script.add_statement split declared (past mention List.mem_cons_self)
      rw [Nat.add_zero] at first
      rw [← line, ← first] at added
      have shift : ∀ index, (before ++ [mention]).length + index = before.length + (index + 1) := by
        intro index
        rw [List.length_append, List.length_singleton, Nat.add_assoc, Nat.add_comm 1]
      obtain ⟨final, ran, events, all⟩ := ih (before ++ [mention])
        (split.trans (List.append_cons before mention others))
        ⟨progress.events ++ [script.event before.length mention],
          (labelsOf (before ++ [mention])).map script.declaration, mention.time⟩
        rfl (List.forall_mem_map.mp ahead) orderedLater (later.trans (by simp only [shift]))
        (lines.trans (by rw [shift 1]))
      refine ⟨final, ?_, ?_, all⟩
      · rw [addAll, added]
        exact ran
      · rw [events, List.append_assoc, List.mapIdx_cons]
        simp only [shift]
        rfl

/-! ### The whole trace -/

private theorem Script.isPlain_statement (script : Script) (index : Nat) {mention : Mention}
    (member : mention ∈ script.mentions) : (script.statement index mention).IsPlain where
  time := spells_toDigits mention.time
  phase := spells_name mention.phase
  label := script.labels mention member
  attributes := by
    intro attr among
    rw [statement] at among
    split at among
    · obtain ⟨setting, -, rfl⟩ := List.mem_map.mp among
      exact setting.isLexeme_written
    · cases among

/-- Every trace is read back from its text, and its transactions have the labels that they are
mentioned by. -/
theorem parse_text (script : Script) :
    parse script.text = .ok script.trace ∧
      ∀ mention ∈ script.mentions,
        script.trace.label? (script.uid mention.label) = some (String.ofList mention.label) := by
  have plain : ∀ content ∈ script.mentions.mapIdx script.statement, content.IsPlain := by
    intro content member
    obtain ⟨index, inside, rfl⟩ := List.mem_mapIdx.mp member
    exact script.isPlain_statement index (List.getElem_mem inside)
  obtain ⟨placed, read, statements, lines⟩ := statementsFrom_flatMap_text plain 1
  constructor
  · obtain ⟨final, ran, events, declared⟩ := addAll_statements script script.text []
      script.mentions rfl .empty rfl (fun mention _ => Nat.zero_le mention.time) script.ordered
      (statements.trans (by simp only [List.length_nil, Nat.zero_add]))
      (lines.trans (by rw [List.length_mapIdx]; rfl))
    refine parse_eq_ok_iff.mpr ⟨placed, final, read, ran, ?_⟩
    rw [events, declared]
    simp only [List.length_nil, Nat.zero_add]
    rfl
  · intro mention member
    have label : (labelsOf script.mentions)[(script.uid mention.label).number]? =
        some mention.label :=
      List.getElem?_idxOf (mem_labelsOf.mpr (List.mem_map_of_mem member))
    rw [label?, Script.trace, List.getElem?_map, label]
    rfl

def readThenWrite : Script where
  mentions :=
    [⟨0, .forward, .beginRequest, "r.0".toList⟩, ⟨2, .backward, .endRequest, "r.0".toList⟩,
      ⟨2, .forward, .beginRequest, "w-1".toList⟩]
  record label := .plain ⟨0⟩ (if label = "r.0".toList then .read else .write)
  settings label :=
    (settingsOf (.plain ⟨0⟩ (if label = "r.0".toList then .read else .write))).reverse
  ordered := by decide
  timely := by decide
  labels := by decide
  widths := fun mention member => by constructor <;> simp [Transaction.plain, Integer.bound]
  complete := fun mention member => List.reverse_perm _

theorem parse_readThenWrite :
    readThenWrite.text =
        "@0 fw BeginRequest r.0 bar=respect snoop=ReadNoSnoop domain=nsh".toList ++
          " cache=0 bytes=1 burst=incr size=0 len=0 addr=0 id=0 cmd=read\n".toList ++
        "@2 bw EndRequest r.0\n".toList ++
        "@2 fw BeginRequest w-1 bar=respect snoop=WriteNoSnoop domain=nsh".toList ++
          " cache=0 bytes=1 burst=incr size=0 len=0 addr=0 id=0 cmd=write\n".toList ∧
      parse readThenWrite.text = .ok
        ⟨[⟨1, 0, .forward, .beginRequest, .plain ⟨0⟩ .read, true⟩,
            ⟨2, 2, .backward, .endRequest, .plain ⟨0⟩ .read, false⟩,
            ⟨3, 2, .forward, .beginRequest, .plain ⟨1⟩ .write, true⟩],
          [⟨"r.0".toList, .plain ⟨0⟩ .read⟩, ⟨"w-1".toList, .plain ⟨1⟩ .write⟩]⟩ := by
  refine ⟨by decide +kernel, (parse_text readThenWrite).1.trans ?_⟩
  decide +kernel

end Handshake.Trace
