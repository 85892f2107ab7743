import Handshake.Proofs.Trace.Written
set_option autoImplicit false

/-! The tokens of a statement. A token is read off a text as far as it goes, so it depends on the
text behind it, but only up to the first white space, comment or line break: what is read of a
token stays the same when such a seam is put anywhere behind it. -/

namespace Handshake.Trace

/-! ### Seams -/

def seams : List Char := [' ', '\t', '#', '\n', '\r']

theorem all_not_eq_true_iff {isPart : Char → Bool} {text : List Char} :
    text.all (fun char => !isPart char) = true ↔ ∀ char ∈ text, isPart char = false := by
  simp only [List.all_eq_true, Bool.not_eq_true']

def Apart (isPart : Char → Bool) : Prop := ∀ char ∈ seams, isPart char = false

instance (isPart : Char → Bool) : Decidable (Apart isPart) :=
  decidable_of_iff (seams.all (fun char => !isPart char) = true) all_not_eq_true_iff

/-- No token goes on here. -/
def AtSeam (rest : List Char) : Prop := ∀ next ∈ rest.head?, next ∈ seams

namespace AtSeam

variable {front back rest : List Char} {isPart : Char → Bool} {char : Char}

theorem nil : AtSeam [] := by
  intro next none
  cases none

theorem cons (seam : char ∈ seams) (rest : List Char) : AtSeam (char :: rest) := by
  rintro _ ⟨⟩
  exact seam

theorem blank (white : isBlank char = true) (rest : List Char) : AtSeam (char :: rest) := by
  rcases isBlank_iff.mp white with rfl | rfl <;> exact cons (by decide) rest

theorem lineEnd (broken : isBreak char = true) (rest : List Char) : AtSeam (char :: rest) := by
  rcases isBreak_iff.mp broken with rfl | rfl <;> exact cons (by decide) rest

private theorem stops (seam : AtSeam rest) (apart : Apart isPart) :
    ∀ next ∈ rest.head?, isPart next = false :=
  fun next first => apart next (seam next first)

/-- What stops a token in front of a text stops it also where a seam cuts that text off. -/
theorem stops_append (seam : AtSeam rest) (apart : Apart isPart)
    (stopped : ∀ next ∈ (front ++ back).head?, isPart next = false) :
    ∀ next ∈ (front ++ rest).head?, isPart next = false := by
  cases front with
  | nil => exact seam.stops apart
  | cons char others => exact stopped

end AtSeam

/-! ### Words -/

section

variable {isPart : Char → Bool} {text word rest : List Char}

private theorem name?_of_seam {front back : List Char} (seam : AtSeam rest)
    (found : name? (word ++ (front ++ back)) = some (word, front ++ back)) :
    name? (word ++ (front ++ rest)) = some (word, front ++ rest) := by
  obtain ⟨-, name, stops⟩ := name?_eq_some_iff.mp found
  exact name?_eq_some_iff.mpr ⟨rfl, name, seam.stops_append (by decide) stops⟩

private theorem word?_of_seam {front back : List Char} (apart : Apart isPart)
    (seam : AtSeam rest)
    (found : word? isPart (word ++ (front ++ back)) = some (word, front ++ back)) :
    word? isPart (word ++ (front ++ rest)) = some (word, front ++ rest) := by
  obtain ⟨-, spells, stops⟩ := word?_eq_some_iff.mp found
  exact word?_eq_some_iff.mpr ⟨rfl, spells, seam.stops_append apart stops⟩

end

/-! ### Literals -/

section

variable {isMark isDigit : Char → Bool} {literal front back rest : List Char}

private theorem scanMarked_of_seam (apart : Apart (isLiteralPart isDigit))
    (seam : AtSeam rest)
    (found : Integer.scanMarked isMark isDigit (literal ++ (front ++ back)) =
      some (literal, front ++ back)) :
    Integer.scanMarked isMark isDigit (literal ++ (front ++ rest)) =
      some (literal, front ++ rest) := by
  obtain ⟨-, marked, stops⟩ := scanMarked_eq_some_iff.mp found
  exact scanMarked_eq_some_iff.mpr ⟨rfl, marked, seam.stops_append apart stops⟩

private theorem scanMarked_eq_none_of_seam (noMark : Apart isMark)
    (noDigit : Apart (isLiteralPart isDigit)) (seam : AtSeam rest)
    (absent : Integer.scanMarked isMark isDigit (front ++ back) = none) :
    Integer.scanMarked isMark isDigit (front ++ rest) = none := by
  rw [scanMarked_eq_none_iff] at absent ⊢
  intro mark digit behind same marked
  match front, absent, same with
  | [], _, same =>
      subst same
      exact absurd (seam '0' rfl) (by decide)
  | [_], _, same =>
      obtain rfl := (List.cons.inj same).2
      rw [noMark mark (seam mark rfl)] at marked
      cases marked
  | [_, _], _, same =>
      obtain rfl := (List.cons.inj (List.cons.inj same).2).2
      exact noDigit digit (seam digit rfl)
  | first :: second :: third :: others, absent, same =>
      obtain ⟨zero, same⟩ := List.cons.inj same
      obtain ⟨second, same⟩ := List.cons.inj same
      obtain ⟨third, -⟩ := List.cons.inj same
      refine absent mark digit (others ++ back) ?_ marked
      rw [zero, second, third]
      rfl

private theorem scan_of_seam (seam : AtSeam rest)
    (found : Integer.scan (literal ++ (front ++ back)) = some (literal, front ++ back)) :
    Integer.scan (literal ++ (front ++ rest)) = some (literal, front ++ rest) := by
  have absent : ∀ isMark isDigit, Apart isMark → Apart (isLiteralPart isDigit) →
      Integer.scanMarked isMark isDigit (literal ++ (front ++ back)) = none →
        Integer.scanMarked isMark isDigit (literal ++ (front ++ rest)) = none := by
    intro isMark isDigit noMark noDigit absent
    rw [← List.append_assoc] at absent ⊢
    exact scanMarked_eq_none_of_seam noMark noDigit seam absent
  unfold Integer.scan at found ⊢
  rw [Option.or_eq_some_iff, Option.or_eq_some_iff] at found ⊢
  rcases found with hexadecimal | ⟨noHex, binary | ⟨noBinary, decimal⟩⟩
  · exact .inl (scanMarked_of_seam (by decide) seam hexadecimal)
  · refine .inr ⟨absent _ _ (by decide) (by decide) noHex, .inl ?_⟩
    exact scanMarked_of_seam (by decide) seam binary
  · refine .inr ⟨absent _ _ (by decide) (by decide) noHex, .inr ?_⟩
    obtain ⟨-, digits, stops⟩ := scanDecimal_eq_some_iff.mp decimal
    refine ⟨absent _ _ (by decide) (by decide) noBinary, ?_⟩
    exact scanDecimal_eq_some_iff.mpr ⟨rfl, digits, seam.stops_append (by decide) stops⟩

end

/-! ### Values -/

theorem value?_append_text {text rest : List Char} {value : Value}
    (found : value? text = some (value, rest)) : text = value.text ++ rest := by
  rcases value?_eq_some_iff.mp found with ⟨literal, rfl, scanned⟩ | ⟨word, rfl, -, named⟩
  · exact (scan_append scanned).1
  · exact (name?_eq_some_iff.mp named).1

private theorem value?_of_seam {value : Value} {front back rest : List Char} (seam : AtSeam rest)
    (found : value? (value.text ++ (front ++ back)) = some (value, front ++ back)) :
    value? (value.text ++ (front ++ rest)) = some (value, front ++ rest) := by
  rcases value?_eq_some_iff.mp found with ⟨literal, rfl, scanned⟩ | ⟨word, rfl, -, named⟩
  · exact value?_eq_some_iff.mpr (.inl ⟨literal, rfl, scan_of_seam seam scanned⟩)
  · obtain ⟨-, name, -⟩ := name?_eq_some_iff.mp named
    exact value?_of_name name (name?_of_seam seam named)

/-! ### Tokens -/

inductive Token where
  /-- an at sign and the literal behind it, which nothing may part -/
  | time (literal : List Char)
  | direction (towards : Direction)
  | phase (word : List Char)
  | label (word : List Char)
  | name (word : List Char)
  | sign
  | value (given : Value)
  deriving DecidableEq

namespace Token

def text : Token → List Char
  | .time literal => '@' :: literal
  | .direction towards => towards.name.toList
  | .phase word | .label word | .name word => word
  | .sign => ['=']
  | .value given => given.text

/-- A token is what is read off the text that it begins, when the given text follows it. -/
def ReadBefore (rest : List Char) : Token → Prop
  | .time literal => Integer.scan (literal ++ rest) = some (literal, rest)
  | .phase word => word? Char.isAlpha (word ++ rest) = some (word, rest)
  | .label word => word? isLabelPart (word ++ rest) = some (word, rest)
  | .name word => name? (word ++ rest) = some (word, rest)
  | .value given => value? (given.text ++ rest) = some (given, rest)
  | .direction _ | .sign => True

instance (rest : List Char) (token : Token) : Decidable (token.ReadBefore rest) :=
  match token with
  | .time _ | .phase _ | .label _ | .name _ | .value _ => inferInstanceAs (Decidable (_ = _))
  | .direction _ | .sign => inferInstanceAs (Decidable True)

/-- A seam may be put anywhere behind a token. -/
theorem ReadBefore.seam {token : Token} {front back rest : List Char}
    (reads : token.ReadBefore (front ++ back)) (seam : AtSeam rest) :
    token.ReadBefore (front ++ rest) := by
  cases token with
  | time literal => exact scan_of_seam seam reads
  | direction towards => trivial
  | phase word => exact word?_of_seam (by decide) seam reads
  | label word => exact word?_of_seam (by decide) seam reads
  | name word => exact name?_of_seam seam reads
  | sign => trivial
  | value given => exact value?_of_seam seam reads

end Token

end Handshake.Trace
