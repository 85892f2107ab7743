import Handshake.Trace.Statement
set_option autoImplicit false

/-! The grammar of traces, as matchers that try alternatives in order and never come back to an
alternative that matched. A matcher answers with the pairs of the rules that matched and with the
text that follows. White space and comments are skipped between the parts of a rule, and between
its repetitions, unless the rule is atomic; an atomic rule has no pairs inside. -/

namespace Handshake.Trace.Grammar

/-! ### Pairs -/

inductive Rule where
  | integer
  | ident
  | time
  | direction
  | phase
  | label
  | value
  | attr
  | attrlist
  | event
  | file
  | endOfInput
  deriving DecidableEq

/-- A match of a rule: the text that remained at its beginning and at its end, and the matches of
the rules inside. -/
structure Pair where
  rule : Rule
  start : List Char
  stop : List Char
  inner : List Pair

def Pair.extent (pair : Pair) : Extent := ⟨pair.start, pair.stop⟩

def Pair.text (pair : Pair) : List Char :=
  pair.start.take (pair.start.length - pair.stop.length)

theorem Pair.text_eq {pair : Pair} {word : List Char} (start : pair.start = word ++ pair.stop) :
    pair.text = word := by
  rw [Pair.text, start, List.length_append, Nat.add_sub_cancel]
  exact List.take_left

/-! ### Matchers -/

abbrev Matcher := List Char → Option (List Pair × List Char)

namespace Matcher

def empty : Matcher := fun text => some ([], text)

def one (isPart : Char → Bool) : Matcher
  | [] => none
  | char :: rest => if isPart char then some ([], rest) else none

def char (sought : Char) : Matcher := one (fun char => char = sought)

def both (first second : Matcher) : Matcher := fun text =>
  (first text).bind (fun (found, rest) =>
    (second rest).map (fun (more, last) => (found ++ more, last)))

def literal (word : List Char) : Matcher :=
  word.foldr (fun sought rest => both (char sought) rest) empty

def either (first second : Matcher) : Matcher := fun text => (first text).or (second text)

def optional (matcher : Matcher) : Matcher := either matcher empty

def notAhead (matcher : Matcher) : Matcher := fun text =>
  if (matcher text).isSome then none else some ([], text)

def atEnd : Matcher
  | [] => some ([], [])
  | _ :: _ => none

/-- Matches of a matcher in a row. None of the matchers that are repeated here matches without
taking something. -/
def repeated (matcher : Matcher) (text : List Char) : List Pair × List Char :=
  match matcher text with
  | none => ([], text)
  | some (found, rest) =>
      if rest.length < text.length then
        (found ++ (repeated matcher rest).1, (repeated matcher rest).2)
      else (found, rest)
termination_by text.length

def star (matcher : Matcher) : Matcher := fun text => some (repeated matcher text)

def plus (matcher : Matcher) : Matcher := both matcher (star matcher)

def rule (rule : Rule) (matcher : Matcher) : Matcher := fun text =>
  (matcher text).map (fun (inner, rest) => ([⟨rule, text, rest, inner⟩], rest))

def atomic (rule : Rule) (matcher : Matcher) : Matcher := fun text =>
  (matcher text).map (fun (_, rest) => ([⟨rule, text, rest, []⟩], rest))

end Matcher

open Matcher

/-! ### Rules -/

def whitespace : Matcher := either (char ' ') (char '\t')

def newline : Matcher := either (char '\n') (either (literal ['\r', '\n']) (char '\r'))

def comment : Matcher := both (char '#') (star (both (notAhead newline) (one (fun _ => true))))

def skip : Matcher := both (star whitespace) (star (both comment (star whitespace)))

def spaced (first second : Matcher) : Matcher := both first (both skip second)

def spacedStar (matcher : Matcher) : Matcher := optional (both matcher (star (both skip matcher)))

def spacedPlus (matcher : Matcher) : Matcher := spaced matcher (spacedStar matcher)

def hexInteger : Matcher :=
  both (either (literal ['0', 'x']) (literal ['0', 'X']))
    (plus (either (one Integer.isHexDigit) (char '_')))

def binaryInteger : Matcher :=
  both (either (literal ['0', 'b']) (literal ['0', 'B']))
    (plus (either (char '0') (either (char '1') (char '_'))))

def decimalInteger : Matcher :=
  both (one Char.isDigit) (star (either (one Char.isDigit) (char '_')))

def integer : Matcher := atomic .integer (either hexInteger (either binaryInteger decimalInteger))

def ident : Matcher :=
  atomic .ident (both (either (one Char.isAlpha) (char '_'))
    (star (either (one Char.isAlphanum) (char '_'))))

def time : Matcher := rule .time (both (char '@') integer)

def direction : Matcher := rule .direction (either (literal ['f', 'w']) (literal ['b', 'w']))

def phase : Matcher := atomic .phase (plus (one Char.isAlpha))

def label : Matcher :=
  atomic .label (plus (either (one Char.isAlphanum)
    (either (char '_') (either (char '-') (char '.')))))

def value : Matcher := rule .value (either integer ident)

def attr : Matcher := rule .attr (spaced ident (optional (spaced (char '=') value)))

def attrlist : Matcher := rule .attrlist (spacedPlus attr)

def event : Matcher :=
  rule .event (spaced time (spaced direction (spaced phase (spaced label (optional attrlist)))))

def line : Matcher := spaced (optional event) newline

def ending : Matcher := spaced (optional event) (rule .endOfInput atEnd)

def file : Matcher := rule .file (both skip (both (spacedStar line) (both skip ending)))

/-! ### How matchers go on -/

section

variable {first second matcher : Matcher} {isPart : Char → Bool} {char : Char}
  {text rest : List Char} {found : List Pair}

theorem one_of_true (part : isPart char = true) (rest : List Char) :
    one isPart (char :: rest) = some ([], rest) :=
  if_pos part

theorem one_of_false (part : isPart char = false) (rest : List Char) :
    one isPart (char :: rest) = none :=
  if_neg (fun holds => Bool.false_ne_true (part.symm.trans holds))

theorem char_self (char : Char) (rest : List Char) :
    Matcher.char char (char :: rest) = some ([], rest) :=
  one_of_true (decide_eq_true rfl) rest

theorem char_of_ne (differs : ∀ rest, text ≠ char :: rest) : Matcher.char char text = none := by
  cases text with
  | nil => rfl
  | cons first rest =>
      exact one_of_false (decide_eq_false (fun same => differs rest (by rw [same]))) rest

theorem both_of_none (absent : first text = none) : both first second text = none := by
  rw [both, absent]
  rfl

theorem both_of_some (matched : first text = some (found, rest)) :
    both first second text = (second rest).map (fun (more, last) => (found ++ more, last)) := by
  rw [both, matched]
  rfl

theorem either_of_none (absent : first text = none) : either first second text = second text := by
  rw [either, absent]
  rfl

theorem either_of_some (matched : first text = some (found, rest)) :
    either first second text = some (found, rest) := by
  rw [either, matched]
  rfl

theorem repeated_of_none (absent : matcher text = none) : repeated matcher text = ([], text) := by
  rw [repeated, absent]

theorem repeated_of_some (matched : matcher text = some (found, rest))
    (shorter : rest.length < text.length) :
    repeated matcher text =
      (found ++ (repeated matcher rest).1, (repeated matcher rest).2) := by
  rw [repeated, matched]
  exact if_pos shorter

end

end Handshake.Trace.Grammar
