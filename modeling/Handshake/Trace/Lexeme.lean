import Handshake.Phase
import Handshake.Trace.Integer
set_option autoImplicit false

/-! The lexemes of a trace and the gaps between them. Each reader takes a lexeme off
the beginning of a text and answers with the text that follows, which is never longer
and, for a lexeme, shorter. -/

namespace Handshake.Trace

/-! ### Gaps -/

def isBlank (char : Char) : Bool := char = ' ' || char = '\t'

def isBreak (char : Char) : Bool := char = '\n' || char = '\r'

/-- Inside a comment, which runs up to a line break, or outside. -/
def dropGapFrom (inComment : Bool) : List Char → List Char
  | [] => []
  | char :: rest =>
      if inComment then
        if isBreak char then char :: rest else dropGapFrom true rest
      else if isBlank char then dropGapFrom false rest
      else if char = '#' then dropGapFrom true rest
      else char :: rest

def dropGap (text : List Char) : List Char := dropGapFrom false text

/-- What follows the line break that a text begins with, and how many lines the break
counts for: a lone carriage return ends a line without counting it. -/
def lineBreak? : List Char → Option (Nat × List Char)
  | '\n' :: rest => some (1, rest)
  | '\r' :: '\n' :: rest => some (1, rest)
  | '\r' :: rest => some (0, rest)
  | _ => none

/-! ### Words -/

def word? (isPart : Char → Bool) (text : List Char) : Option (List Char × List Char) :=
  if text.takeWhile isPart = [] then none
  else some (text.takeWhile isPart, text.dropWhile isPart)

def isNameStart (char : Char) : Bool := char.isAlpha || char = '_'

def isNamePart (char : Char) : Bool := char.isAlphanum || char = '_'

def isLabelPart (char : Char) : Bool := isNamePart char || char = '-' || char = '.'

def name? : List Char → Option (List Char × List Char)
  | [] => none
  | first :: rest =>
      if isNameStart first then
        some (first :: rest.takeWhile isNamePart, rest.dropWhile isNamePart)
      else none

def direction? : List Char → Option (Direction × List Char)
  | 'f' :: 'w' :: rest => some (.forward, rest)
  | 'b' :: 'w' :: rest => some (.backward, rest)
  | _ => none

inductive Value where
  | integer (text : List Char)
  | word (text : List Char)
  deriving DecidableEq

def value? (text : List Char) : Option (Value × List Char) :=
  ((Integer.scan text).map (fun (literal, rest) => (Value.integer literal, rest))).or
    ((name? text).map (fun (word, rest) => (Value.word word, rest)))

/-! ### Lexemes shorten the text -/

theorem dropGapFrom_length_le (inComment : Bool) (text : List Char) :
    (dropGapFrom inComment text).length ≤ text.length := by
  induction text generalizing inComment with
  | nil => simp [dropGapFrom]
  | cons char rest ih =>
      unfold dropGapFrom
      have inside := ih true
      have outside := ih false
      split
      · split
        · exact Nat.le_refl _
        · exact Nat.le_succ_of_le inside
      · split
        · exact Nat.le_succ_of_le outside
        · split
          · exact Nat.le_succ_of_le inside
          · exact Nat.le_refl _

theorem dropGap_length_le (text : List Char) : (dropGap text).length ≤ text.length :=
  dropGapFrom_length_le false text

theorem dropWhile_length_le (isPart : Char → Bool) (text : List Char) :
    (text.dropWhile isPart).length ≤ text.length :=
  (List.dropWhile_suffix isPart).length_le

theorem lineBreak?_shorter {text rest : List Char} {count : Nat}
    (found : lineBreak? text = some (count, rest)) : rest.length < text.length := by
  unfold lineBreak? at found
  split at found <;> simp at found <;> obtain ⟨_, same⟩ := found <;> subst same <;>
    simp only [List.length_cons] <;> omega

theorem word?_not_longer {isPart : Char → Bool} {text word rest : List Char}
    (found : word? isPart text = some (word, rest)) : rest.length ≤ text.length := by
  unfold word? at found
  split at found
  · cases found
  · simp only [Option.some.injEq, Prod.mk.injEq] at found
    rw [← found.2]
    exact dropWhile_length_le isPart text

theorem name?_shorter {text name rest : List Char} (found : name? text = some (name, rest)) :
    rest.length < text.length := by
  unfold name? at found
  split at found
  · cases found
  · split at found
    · simp only [Option.some.injEq, Prod.mk.injEq] at found
      rw [← found.2]
      exact Nat.lt_succ_of_le (dropWhile_length_le _ _)
    · cases found

theorem direction?_shorter {text rest : List Char} {direction : Direction}
    (found : direction? text = some (direction, rest)) : rest.length < text.length := by
  unfold direction? at found
  split at found <;> simp at found <;> obtain ⟨_, same⟩ := found <;> subst same <;>
    simp only [List.length_cons] <;> omega

theorem scanMarked_shorter {isMark isDigit : Char → Bool} {text literal rest : List Char}
    (found : Integer.scanMarked isMark isDigit text = some (literal, rest)) :
    rest.length < text.length := by
  unfold Integer.scanMarked at found
  split at found
  · dsimp only at found
    split at found
    · simp only [Option.some.injEq, Prod.mk.injEq] at found
      rw [← found.2]
      have bounded := dropWhile_length_le (fun char => isDigit char || decide (char = '_'))
      simp only [List.length_cons]
      exact Nat.lt_succ_of_le (Nat.le_succ_of_le (bounded _))
    · cases found
  · cases found

theorem scanDecimal_shorter {text literal rest : List Char}
    (found : Integer.scanDecimal text = some (literal, rest)) : rest.length < text.length := by
  unfold Integer.scanDecimal at found
  split at found
  · cases found
  · split at found
    · simp only [Option.some.injEq, Prod.mk.injEq] at found
      rw [← found.2]
      exact Nat.lt_succ_of_le (dropWhile_length_le _ _)
    · cases found

theorem scan_shorter {text literal rest : List Char}
    (found : Integer.scan text = some (literal, rest)) : rest.length < text.length := by
  unfold Integer.scan at found
  rw [Option.or_eq_some_iff, Option.or_eq_some_iff] at found
  rcases found with hexadecimal | ⟨_, binary | ⟨_, decimal⟩⟩
  · exact scanMarked_shorter hexadecimal
  · exact scanMarked_shorter binary
  · exact scanDecimal_shorter decimal

theorem value?_shorter {text rest : List Char} {value : Value}
    (found : value? text = some (value, rest)) : rest.length < text.length := by
  unfold value? at found
  rw [Option.or_eq_some_iff] at found
  rcases found with literal | ⟨_, word⟩
  · obtain ⟨⟨_, _⟩, scanned, same⟩ := Option.map_eq_some_iff.mp literal
    cases same
    exact scan_shorter scanned
  · obtain ⟨⟨_, _⟩, named, same⟩ := Option.map_eq_some_iff.mp word
    cases same
    exact name?_shorter named

end Handshake.Trace
