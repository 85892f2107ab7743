import Mathlib.Data.List.TakeWhile
import Handshake.Trace.Lexeme
set_option autoImplicit false

/-! What the readers of lexemes take off a text: exactly a lexeme of their kind that the text behind
it does not continue. -/

namespace Handshake.Trace

/-! ### Classes of characters -/

/-- A word over a class of characters. -/
structure Spells (isPart : Char → Bool) (word : List Char) : Prop where
  nonempty : word ≠ []
  all : ∀ char ∈ word, isPart char = true

structure IsName (word : List Char) : Prop extends Spells isNamePart word where
  start : ∀ first ∈ word.head?, isNameStart first = true

instance (isPart : Char → Bool) (word : List Char) : Decidable (Spells isPart word) :=
  decidable_of_iff (word ≠ [] ∧ word.all isPart = true)
    ⟨fun spells => ⟨spells.1, List.all_eq_true.mp spells.2⟩,
      fun spells => ⟨spells.nonempty, List.all_eq_true.mpr spells.all⟩⟩

instance (word : List Char) : Decidable (IsName word) :=
  decidable_of_iff (Spells isNamePart word ∧ word.head?.all isNameStart = true)
    ⟨fun name => ⟨name.1, (Option.all_eq_true _ _).mp name.2⟩,
      fun name => ⟨name.toSpells, (Option.all_eq_true _ _).mpr name.start⟩⟩

theorem IsName.start_append {word rest : List Char} (name : IsName word) {first : Char}
    (head : first ∈ (word ++ rest).head?) : isNameStart first = true := by
  obtain ⟨front, others, rfl⟩ := List.exists_cons_of_ne_nil name.nonempty
  exact name.start first head

section

variable {isPart : Char → Bool} {part rest : List Char}

theorem takeWhile_append_of_stops (isPart : Char → Bool) (all : ∀ char ∈ part, isPart char = true)
    (stops : ∀ next ∈ rest.head?, isPart next = false) :
    (part ++ rest).takeWhile isPart = part ∧ (part ++ rest).dropWhile isPart = rest := by
  rw [List.takeWhile_append_of_pos all, List.dropWhile_append_of_pos all]
  cases rest with
  | nil => exact ⟨List.append_nil part, rfl⟩
  | cons next others =>
      have stop : ¬ isPart next = true := by simp [stops next rfl]
      rw [List.takeWhile_cons_of_neg stop, List.dropWhile_cons_of_neg stop, List.append_nil]
      exact ⟨rfl, rfl⟩

theorem stops_dropWhile (isPart : Char → Bool) (text : List Char) :
    ∀ next ∈ (text.dropWhile isPart).head?, isPart next = false := by
  intro next first
  have stops := List.head?_dropWhile_not isPart text
  rw [Option.mem_def.mp first] at stops
  exact stops

end

/-! ### Words -/

section

variable {isPart : Char → Bool} {text word rest : List Char}

theorem word?_append_of_stops (spells : Spells isPart word)
    (stops : ∀ next ∈ rest.head?, isPart next = false) :
    word? isPart (word ++ rest) = some (word, rest) := by
  obtain ⟨taken, dropped⟩ := takeWhile_append_of_stops isPart spells.all stops
  rw [word?, taken, dropped, if_neg spells.nonempty]

theorem word?_eq_some_iff :
    word? isPart text = some (word, rest) ↔
      text = word ++ rest ∧ Spells isPart word ∧ ∀ next ∈ rest.head?, isPart next = false := by
  constructor
  · intro found
    unfold word? at found
    split at found
    · cases found
    · rename_i nonempty
      cases found
      exact ⟨List.takeWhile_append_dropWhile.symm,
        ⟨nonempty, fun _ member => List.mem_takeWhile_imp member⟩, stops_dropWhile isPart text⟩
  · rintro ⟨rfl, spells, stops⟩
    exact word?_append_of_stops spells stops

theorem name?_append_of_stops (name : IsName word)
    (stops : ∀ next ∈ rest.head?, isNamePart next = false) :
    name? (word ++ rest) = some (word, rest) := by
  cases word with
  | nil => exact absurd rfl name.nonempty
  | cons first others =>
      have all := (List.forall_mem_cons.mp name.all).2
      obtain ⟨taken, dropped⟩ := takeWhile_append_of_stops isNamePart all stops
      rw [List.cons_append, name?, if_pos (name.start first rfl), taken, dropped]

theorem isNamePart_of_isNameStart {char : Char} (start : isNameStart char = true) :
    isNamePart char = true := by
  rw [isNameStart, Bool.or_eq_true] at start
  rw [isNamePart, Char.isAlphanum, Bool.or_eq_true, Bool.or_eq_true]
  exact start.imp_left .inl

theorem name?_eq_some_iff :
    name? text = some (word, rest) ↔
      text = word ++ rest ∧ IsName word ∧ ∀ next ∈ rest.head?, isNamePart next = false := by
  constructor
  · intro found
    unfold name? at found
    split at found
    · cases found
    · rename_i first behind
      split at found
      · rename_i start
        cases found
        have parts : ∀ char ∈ first :: behind.takeWhile isNamePart, isNamePart char = true :=
          List.forall_mem_cons.mpr
            ⟨isNamePart_of_isNameStart start, fun _ member => List.mem_takeWhile_imp member⟩
        refine ⟨?_, ⟨⟨List.cons_ne_nil _ _, parts⟩, ?_⟩, stops_dropWhile isNamePart behind⟩
        · rw [List.cons_append, List.takeWhile_append_dropWhile]
        · rintro _ ⟨⟩
          exact start
      · cases found
  · rintro ⟨rfl, name, stops⟩
    exact name?_append_of_stops name stops

end

/-! ### Literals -/

section

variable {isMark isDigit : Char → Bool} {text literal rest : List Char}

def isLiteralPart (isDigit : Char → Bool) (char : Char) : Bool := isDigit char || char = '_'

theorem scanMarked_eq_some_iff :
    Integer.scanMarked isMark isDigit text = some (literal, rest) ↔
      text = literal ++ rest ∧
        (∃ mark digits, literal = '0' :: mark :: digits ∧ isMark mark = true ∧
          Spells (isLiteralPart isDigit) digits) ∧
        ∀ next ∈ rest.head?, isLiteralPart isDigit next = false := by
  constructor
  · intro found
    unfold Integer.scanMarked at found
    split at found
    · rename_i zero mark behind
      dsimp only at found
      split at found
      · rename_i marked
        obtain ⟨rfl, isMark, nonempty⟩ := marked
        cases found
        refine ⟨?_, ⟨mark, _, rfl, isMark, nonempty, ?_⟩, stops_dropWhile _ behind⟩
        · rw [List.cons_append, List.cons_append, List.takeWhile_append_dropWhile]
        · exact fun _ member => List.mem_takeWhile_imp (p := isLiteralPart isDigit) member
      · cases found
    · cases found
  · rintro ⟨rfl, ⟨mark, digits, rfl, marked, spells⟩, stops⟩
    obtain ⟨taken, dropped⟩ :=
      takeWhile_append_of_stops (isLiteralPart isDigit) spells.all stops
    have nonempty : (digits ++ rest).takeWhile (isLiteralPart isDigit) ≠ [] := by
      rw [taken]
      exact spells.nonempty
    have found : Integer.scanMarked isMark isDigit ('0' :: mark :: (digits ++ rest)) =
        some ('0' :: mark :: (digits ++ rest).takeWhile (isLiteralPart isDigit),
          (digits ++ rest).dropWhile (isLiteralPart isDigit)) := if_pos ⟨rfl, marked, nonempty⟩
    rw [taken, dropped] at found
    exact found

theorem scanMarked_eq_none_iff :
    Integer.scanMarked isMark isDigit text = none ↔
      ∀ mark digit behind, text = '0' :: mark :: digit :: behind → isMark mark = true →
        isLiteralPart isDigit digit = false := by
  constructor
  · rintro absent mark digit behind rfl marked
    refine Bool.eq_false_iff.mpr (fun part => ?_)
    have nonempty : (digit :: behind).takeWhile (isLiteralPart isDigit) ≠ [] := by
      rw [List.takeWhile_cons_of_pos part]
      exact List.cons_ne_nil _ _
    have found : Integer.scanMarked isMark isDigit ('0' :: mark :: digit :: behind) = some _ :=
      if_pos ⟨rfl, marked, nonempty⟩
    cases absent.symm.trans found
  · intro unmarked
    unfold Integer.scanMarked
    split
    · rename_i zero mark behind
      refine if_neg ?_
      rintro ⟨rfl, marked, nonempty⟩
      cases behind with
      | nil => exact nonempty rfl
      | cons digit others =>
          have outside := unmarked mark digit others rfl marked
          refine nonempty (List.takeWhile_cons_of_neg (p := isLiteralPart isDigit) ?_)
          rw [outside]
          exact Bool.false_ne_true
    · rfl

theorem scanDecimal_eq_some_iff :
    Integer.scanDecimal text = some (literal, rest) ↔
      text = literal ++ rest ∧
        (∃ first digits, literal = first :: digits ∧ first.isDigit = true ∧
          ∀ char ∈ digits, isLiteralPart Char.isDigit char = true) ∧
        ∀ next ∈ rest.head?, isLiteralPart Char.isDigit next = false := by
  constructor
  · intro found
    unfold Integer.scanDecimal at found
    split at found
    · cases found
    · rename_i first behind
      split at found
      · rename_i digit
        cases found
        refine ⟨?_, ⟨first, _, rfl, digit, ?_⟩, stops_dropWhile _ behind⟩
        · rw [List.cons_append, List.takeWhile_append_dropWhile]
        · exact fun _ member => List.mem_takeWhile_imp (p := isLiteralPart Char.isDigit) member
      · cases found
  · rintro ⟨rfl, ⟨first, digits, rfl, digit, all⟩, stops⟩
    obtain ⟨taken, dropped⟩ := takeWhile_append_of_stops (isLiteralPart Char.isDigit) all stops
    rw [List.cons_append, Integer.scanDecimal, if_pos digit]
    exact congrArg some (congrArg₂ Prod.mk (congrArg (first :: ·) taken) dropped)

theorem not_isDigit_of_isNameStart {char : Char} (start : isNameStart char = true) :
    char.isDigit = false := by
  refine Bool.eq_false_iff.mpr (fun digit => ?_)
  rw [isNameStart, Bool.or_eq_true, decide_eq_true_eq] at start
  rcases start with letter | rfl
  · have bounds : (decide ('A'.val ≤ char.val ∧ char.val ≤ 'Z'.val) ||
        (decide ('a'.val ≤ char.val) && decide (char.val ≤ 'z'.val))) = true := letter
    have small := (Char.isDigit_iff_toNat.mp digit).2
    simp only [Bool.or_eq_true, Bool.and_eq_true, decide_eq_true_eq,
      UInt32.le_iff_toNat_le] at bounds
    have upper : 'A'.val.toNat = '9'.toNat + 8 := rfl
    have lower : 'a'.val.toNat = '9'.toNat + 40 := rfl
    have value : char.toNat = char.val.toNat := rfl
    omega
  · exact absurd digit (by decide)

theorem scan_eq_none {first : Char} (start : isNameStart first = true) :
    Integer.scan (first :: rest) = none := by
  have noDigit := not_isDigit_of_isNameStart start
  have noMarked : ∀ isMark isDigit, Integer.scanMarked isMark isDigit (first :: rest) = none := by
    intro isMark isDigit
    refine scanMarked_eq_none_iff.mpr (fun mark digit behind same _ => ?_)
    rw [(List.cons.inj same).1] at noDigit
    cases noDigit
  rw [Integer.scan, noMarked, noMarked, Integer.scanDecimal, noDigit,
    if_neg Bool.false_ne_true]
  rfl

end

/-! ### Values -/

theorem value?_eq_some_iff {text rest : List Char} {value : Value} :
    value? text = some (value, rest) ↔
      (∃ literal, value = .integer literal ∧ Integer.scan text = some (literal, rest)) ∨
        ∃ word, value = .word word ∧ Integer.scan text = none ∧ name? text = some (word, rest) := by
  unfold value?
  cases Integer.scan text with
  | some found =>
      rw [Option.map_some, Option.some_or]
      constructor
      · intro same
        cases same
        exact .inl ⟨found.1, rfl, rfl⟩
      · rintro (⟨literal, rfl, scanned⟩ | ⟨_, -, absent, -⟩)
        · cases scanned
          rfl
        · cases absent
  | none =>
      rw [Option.map_none, Option.none_or, Option.map_eq_some_iff]
      constructor
      · rintro ⟨⟨word, behind⟩, named, same⟩
        cases same
        exact .inr ⟨word, rfl, rfl, named⟩
      · rintro (⟨literal, -, scanned⟩ | ⟨word, rfl, -, named⟩)
        · cases scanned
        · exact ⟨(word, rest), named, rfl⟩

theorem value?_of_name {word rest : List Char} (name : IsName word)
    (named : name? (word ++ rest) = some (word, rest)) :
    value? (word ++ rest) = some (.word word, rest) := by
  obtain ⟨first, others, same⟩ := List.exists_cons_of_ne_nil name.nonempty
  have noInteger : Integer.scan (word ++ rest) = none := by
    rw [same]
    exact scan_eq_none (name.start first (by rw [same]; rfl))
  exact value?_eq_some_iff.mpr (.inr ⟨word, rfl, noInteger, named⟩)

end Handshake.Trace
