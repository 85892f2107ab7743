import Mathlib.Data.Nat.Digits.Defs
import Handshake.Proofs.Trace.Declaration
import Handshake.Proofs.Trace.Grammar.Lexeme
set_option autoImplicit false

/-! The value of integer literals. The grammar tells the base of a literal from the text as it
stands, and the conversion from the text without its underscores; they agree on every literal, so
its value is the positional value of its figures. -/

namespace Handshake

/-- A word that a matcher takes off some text. -/
def Trace.Grammar.Matches (matcher : Matcher) (word : List Char) : Prop :=
  ∃ rest pairs, matcher (word ++ rest) = some (pairs, rest)

namespace Integer

/-! ### Literals as they are written -/

def base : List Char → Nat
  | '0' :: 'x' :: _ => 16
  | '0' :: 'X' :: _ => 16
  | '0' :: 'b' :: _ => 2
  | '0' :: 'B' :: _ => 2
  | _ => 10

def figures (literal : List Char) : List Char :=
  (if base literal = 10 then literal else literal.drop 2).filter (· ≠ '_')

/-- The place of a figure among the figures of all bases, capital or small. -/
def figureValue (figure : Char) : Nat :=
  ['0', '1', '2', '3', '4', '5', '6', '7', '8', '9', 'a', 'b', 'c', 'd', 'e', 'f'].idxOf
    figure.toLower

/-- The positional value of a literal, whose last figure counts once. -/
def value (literal : List Char) : Nat :=
  Nat.ofDigits (base literal) ((figures literal).map figureValue).reverse

/-- What a reader is told of a literal: its value, or why it has none. -/
def answer (literal : List Char) : Except String Nat :=
  (parse literal).mapError (fun fault => (Trace.Fault.integer literal fault).message)

/-! ### Figures -/

def allFigures : List Char :=
  ['0', '1', '2', '3', '4', '5', '6', '7', '8', '9', 'a', 'b', 'c', 'd', 'e', 'f',
    'A', 'B', 'C', 'D', 'E', 'F']

private theorem mem_allFigures {char : Char} (digit : isHexDigit char = true) :
    char ∈ allFigures := by
  have number : ∀ other : Char, char = other ↔ char.toNat = other.toNat :=
    fun other => Char.toNat_inj.symm
  simp only [isHexDigit, Char.isDigit_iff_toNat, Bool.or_eq_true, Bool.and_eq_true,
    decide_eq_true_eq, Char.le_def, UInt32.le_iff_toNat_le, Char.toNat_val,
    Char.reduceToNat] at digit
  simp only [allFigures, List.mem_cons, number, Char.reduceToNat, List.not_mem_nil]
  omega

private theorem digitValue?_of_isDigit {isDigit : Char → Bool} {base : Nat}
    (hexadecimal : ∀ char, isDigit char = true → isHexDigit char = true)
    (within : allFigures.Forall fun figure => isDigit figure = true → figureValue figure < base)
    {char : Char} (digit : isDigit char = true) :
    digitValue? base char = some (figureValue char) := by
  have member := mem_allFigures (hexadecimal char digit)
  have largest : allFigures.Forall fun figure =>
      digitValue? 16 figure = some (figureValue figure) := by
    decide
  have valued := List.forall_iff_forall_mem.mp largest char member
  unfold digitValue? at valued ⊢
  rw [Option.filter_eq_some_iff] at valued ⊢
  have fits := List.forall_iff_forall_mem.mp within char member digit
  exact ⟨valued.1, decide_eq_true fits⟩

private theorem isHexDigit_of_isDigit (char : Char) (digit : char.isDigit = true) :
    isHexDigit char = true := by
  rw [isHexDigit, digit]
  rfl

private theorem isHexDigit_of_isBinaryDigit (char : Char) (digit : isBinaryDigit char = true) :
    isHexDigit char = true := by
  simp only [isBinaryDigit, Bool.or_eq_true, decide_eq_true_eq] at digit
  rcases digit with rfl | rfl <;> rfl

private theorem isDigit_of_mem_filter {isDigit : Char → Bool} {written : List Char}
    (all : ∀ char ∈ written, Trace.isLiteralPart isDigit char = true) {char : Char}
    (member : char ∈ written.filter (· ≠ '_')) : isDigit char = true := by
  obtain ⟨inside, noUnderscore⟩ := List.mem_filter.mp member
  have part := all char inside
  rw [Trace.isLiteralPart, Bool.or_eq_true] at part
  exact part.resolve_right (fun same => of_decide_eq_true noUnderscore (of_decide_eq_true same))

private theorem valueFrom?_eq {base : Nat} {digits : List Char}
    (valued : ∀ char ∈ digits, digitValue? base char = some (figureValue char)) (value : Nat) :
    valueFrom? base value digits =
      some (base ^ digits.length * value +
        Nat.ofDigits base (digits.map figureValue).reverse) := by
  induction digits generalizing value with
  | nil => simp [valueFrom?]
  | cons char rest ih =>
      obtain ⟨first, others⟩ := List.forall_mem_cons.mp valued
      rw [valueFrom?, first, Option.bind_some, ih others, List.map_cons,
        Nat.ofDigits_reverse_cons, List.length_map, List.length_cons, Nat.pow_succ]
      congr 1
      ring

/-! ### Literals -/

section

variable {literal : List Char}

private theorem matches_iff_scan : Trace.Grammar.Matches Trace.Grammar.integer literal ↔
    ∃ rest, scan (literal ++ rest) = some (literal, rest) := by
  simp only [Trace.Grammar.Matches, Trace.Grammar.integer_eq, Option.map_eq_some_iff]
  constructor
  · rintro ⟨rest, pairs, ⟨word, behind⟩, scanned, same⟩
    cases same
    -- what was taken is what the text has before the rest
    have own : literal = word := List.append_cancel_right (Trace.scan_append scanned).1
    subst own
    exact ⟨_, scanned⟩
  · rintro ⟨rest, scanned⟩
    exact ⟨rest, _, (literal, rest), scanned, rfl⟩

private theorem parse_of_valued
    (read : baseAndDigits (literal.filter (· ≠ '_')) = (base literal, figures literal))
    (valued : ∀ char ∈ figures literal,
      digitValue? (base literal) char = some (figureValue char)) :
    parse literal =
      if figures literal = [] then .error .empty
      else if value literal < bound then .ok (value literal) else .error .tooLarge := by
  have number := valueFrom?_eq valued 0
  rw [Nat.mul_zero, Nat.zero_add] at number
  simp only [parse, read, number]
  rfl

private theorem read_of_marked {mark : Char} {named : Nat} (digits : List Char)
    (marked : isHexMark mark = true ∧ named = 16 ∨ isBinaryMark mark = true ∧ named = 2) :
    baseAndDigits (('0' :: mark :: digits).filter (· ≠ '_')) =
        (named, digits.filter (· ≠ '_')) ∧
      base ('0' :: mark :: digits) = named ∧
      figures ('0' :: mark :: digits) = digits.filter (· ≠ '_') := by
  simp only [isHexMark, isBinaryMark, Bool.or_eq_true, decide_eq_true_eq] at marked
  rcases marked with ⟨rfl | rfl, rfl⟩ | ⟨rfl | rfl, rfl⟩
  all_goals exact ⟨rfl, rfl, rfl⟩

private theorem read_of_decimal
    (decimal : ∀ char ∈ literal, Trace.isLiteralPart Char.isDigit char = true) :
    baseAndDigits (literal.filter (· ≠ '_')) = (10, literal.filter (· ≠ '_')) ∧
      base literal = 10 ∧ figures literal = literal.filter (· ≠ '_') := by
  have unmarked : base literal = 10 := by
    unfold base
    split
    case h_5 => rfl
    -- a mark is neither a digit nor an underscore
    all_goals
      have mark := decimal _ (List.mem_cons_of_mem _ List.mem_cons_self)
      exact absurd mark (by decide)
  refine ⟨Trace.baseAndDigits_of_digits (fun char member => ?_), unmarked, ?_⟩
  · exact isDigit_of_mem_filter decimal member
  · rw [figures, if_pos unmarked]

/-- The conversion reads off a literal the base and the figures that are written, and values each
figure by its place. -/
theorem read_and_valued (matched : Trace.Grammar.Matches Trace.Grammar.integer literal) :
    baseAndDigits (literal.filter (· ≠ '_')) = (base literal, figures literal) ∧
      ∀ char ∈ figures literal, digitValue? (base literal) char = some (figureValue char) := by
  obtain ⟨rest, scanned⟩ := matches_iff_scan.mp matched
  rw [scan, Option.or_eq_some_iff, Option.or_eq_some_iff] at scanned
  rcases scanned with hexadecimal | ⟨-, binary | ⟨-, decimal⟩⟩
  · obtain ⟨-, ⟨mark, digits, rfl, marked, spells⟩, -⟩ :=
      Trace.scanMarked_eq_some_iff.mp hexadecimal
    obtain ⟨read, named, written⟩ := read_of_marked digits (.inl ⟨marked, rfl⟩)
    rw [named, written]
    refine ⟨read, fun char member => ?_⟩
    exact digitValue?_of_isDigit (fun _ digit => digit) (by decide)
      (isDigit_of_mem_filter spells.all member)
  · obtain ⟨-, ⟨mark, digits, rfl, marked, spells⟩, -⟩ := Trace.scanMarked_eq_some_iff.mp binary
    obtain ⟨read, named, written⟩ := read_of_marked digits (.inr ⟨marked, rfl⟩)
    rw [named, written]
    refine ⟨read, fun char member => ?_⟩
    exact digitValue?_of_isDigit isHexDigit_of_isBinaryDigit (by decide)
      (isDigit_of_mem_filter spells.all member)
  · obtain ⟨-, ⟨first, digits, rfl, digit, all⟩, -⟩ := Trace.scanDecimal_eq_some_iff.mp decimal
    have decimal : ∀ char ∈ first :: digits, Trace.isLiteralPart Char.isDigit char = true :=
      List.forall_mem_cons.mpr ⟨by rw [Trace.isLiteralPart, digit]; rfl, all⟩
    obtain ⟨read, named, written⟩ := read_of_decimal decimal
    rw [named, written]
    refine ⟨read, fun char member => ?_⟩
    exact digitValue?_of_isDigit isHexDigit_of_isDigit (by decide)
      (isDigit_of_mem_filter decimal member)

end

/-- A literal has a value exactly if it has figures whose positional value takes at most 64 bits,
and then it is that value. Else it is refused for having no figures or for being too large, and
never for what it is written with. -/
theorem answer_of_matches {literal : List Char}
    (matched : Trace.Grammar.Matches Trace.Grammar.integer literal) :
    (∀ number, answer literal = .ok number ↔
        figures literal ≠ [] ∧ value literal = number ∧ number < 2 ^ 64) ∧
      (figures literal = [] → answer literal = .error
        ("Invalid integer '" ++ String.ofList literal ++ "': " ++
          "cannot parse integer from empty string")) ∧
      (figures literal ≠ [] → 2 ^ 64 ≤ value literal → answer literal = .error
        ("Invalid integer '" ++ String.ofList literal ++ "': " ++
          "number too large to fit in target type")) ∧
      parse literal ≠ .error .invalidDigit := by
  obtain ⟨read, valued⟩ := read_and_valued matched
  have parsed := parse_of_valued read valued
  rw [show bound = 2 ^ 64 from rfl] at parsed
  unfold answer
  by_cases empty : figures literal = []
  · rw [if_pos empty] at parsed
    rw [parsed]
    refine ⟨fun number => ?_, fun _ => rfl, fun figured => absurd empty figured, by decide⟩
    exact ⟨nofun, fun ⟨figured, _⟩ => absurd empty figured⟩
  rw [if_neg empty] at parsed
  by_cases fits : value literal < 2 ^ 64
  · rw [if_pos fits] at parsed
    rw [parsed]
    refine ⟨fun number => ⟨?_, ?_⟩, fun none => absurd none empty,
      fun _ large => absurd fits (Nat.not_lt.mpr large), nofun⟩
    · intro valued
      cases valued
      exact ⟨empty, rfl, fits⟩
    · rintro ⟨-, rfl, -⟩
      rfl
  · rw [if_neg fits] at parsed
    rw [parsed]
    refine ⟨fun number => ⟨nofun, ?_⟩, fun none => absurd none empty, fun _ _ => rfl, by decide⟩
    rintro ⟨-, rfl, small⟩
    exact absurd small fits

theorem answer_of_largest_and_empty :
    answer "0xffff_ffff_ffff_ffff".toList = .ok (2 ^ 64 - 1) ∧
      answer "0b_".toList =
        .error "Invalid integer '0b_': cannot parse integer from empty string" ∧
      answer "0x1_0000_0000_0000_0000".toList =
        .error ("Invalid integer '0x1_0000_0000_0000_0000': " ++
          "number too large to fit in target type") := by
  refine ⟨?_, ?_, ?_⟩
  · have matched := (@matches_iff_scan "0xffff_ffff_ffff_ffff".toList).mpr
      ⟨[], by decide⟩
    exact ((answer_of_matches matched).1 (2 ^ 64 - 1)).mpr (by decide)
  · have matched := (@matches_iff_scan "0b_".toList).mpr ⟨[], by decide⟩
    exact (answer_of_matches matched).2.1 (by decide)
  · have matched := (@matches_iff_scan "0x1_0000_0000_0000_0000".toList).mpr
      ⟨[], by decide⟩
    exact (answer_of_matches matched).2.2.1 (by decide) (by decide)

end Integer

end Handshake
