set_option autoImplicit false

/-! Integer literals of traces: decimal, hexadecimal behind `0x`, or binary behind
`0b`, with underscores anywhere among the digits. `scan` finds the literal that a
text begins with; `parse` gives its value. -/

namespace Handshake.Integer

/-! ### Finding a literal -/

def isHexDigit (char : Char) : Bool :=
  char.isDigit || ('a' ≤ char && char ≤ 'f') || ('A' ≤ char && char ≤ 'F')

def isBinaryDigit (char : Char) : Bool := char = '0' || char = '1'

def isHexMark (char : Char) : Bool := char = 'x' || char = 'X'

def isBinaryMark (char : Char) : Bool := char = 'b' || char = 'B'

/-- A literal behind a zero and a radix mark, with at least one digit or underscore,
and the text that follows it. -/
def scanMarked (isMark isDigit : Char → Bool) : List Char → Option (List Char × List Char)
  | zero :: mark :: rest =>
      let digits := rest.takeWhile (fun char => isDigit char || char = '_')
      if zero = '0' ∧ isMark mark ∧ digits ≠ [] then
        some (zero :: mark :: digits, rest.dropWhile (fun char => isDigit char || char = '_'))
      else none
  | _ => none

def scanDecimal : List Char → Option (List Char × List Char)
  | [] => none
  | first :: rest =>
      if first.isDigit then
        some (first :: rest.takeWhile (fun char => char.isDigit || char = '_'),
          rest.dropWhile (fun char => char.isDigit || char = '_'))
      else none

/-- The literal at the beginning of a text, and what follows it. A zero whose radix
mark has no digits is a decimal literal by itself. -/
def scan (text : List Char) : Option (List Char × List Char) :=
  (scanMarked isHexMark isHexDigit text).or
    ((scanMarked isBinaryMark isBinaryDigit text).or (scanDecimal text))

/-! ### The value -/

inductive Fault where
  | empty
  | invalidDigit
  | tooLarge
  deriving DecidableEq

def Fault.message : Fault → String
  | empty => "cannot parse integer from empty string"
  | invalidDigit => "invalid digit found in string"
  | tooLarge => "number too large to fit in target type"

/-- Values must be below this bound: they take at most 64 bits. -/
def bound : Nat := 0x10000000000000000

def digitValue? (base : Nat) (char : Char) : Option Nat :=
  let value :=
    if char.isDigit then some (char.toNat - '0'.toNat)
    else if 'a' ≤ char && char ≤ 'z' then some (char.toNat - 'a'.toNat + 10)
    else if 'A' ≤ char && char ≤ 'Z' then some (char.toNat - 'A'.toNat + 10)
    else none
  value.filter (· < base)

def valueFrom? (base : Nat) : Nat → List Char → Option Nat
  | value, [] => some value
  | value, char :: rest =>
      (digitValue? base char).bind (fun digit => valueFrom? base (base * value + digit) rest)

def baseAndDigits : List Char → Nat × List Char
  | '0' :: 'x' :: digits => (16, digits)
  | '0' :: 'X' :: digits => (16, digits)
  | '0' :: 'b' :: digits => (2, digits)
  | '0' :: 'B' :: digits => (2, digits)
  | digits => (10, digits)

/-- The value of a literal. Underscores count for nothing. -/
def parse (literal : List Char) : Except Fault Nat :=
  let (base, digits) := baseAndDigits (literal.filter (· ≠ '_'))
  if digits = [] then .error .empty
  else
    match valueFrom? base 0 digits with
    | none => .error .invalidDigit
    | some value => if value < bound then .ok value else .error .tooLarge

end Handshake.Integer
