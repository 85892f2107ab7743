import Handshake.Text.Unspaced
import Handshake.Text.Wide
set_option autoImplicit false

/-! The number of terminal columns that a character takes. -/

namespace Handshake

/-- The width of a sign that stands for a sequence of signs, as wide as these together:
the Khmer vowel `QAA` is written for two and the Khmer sign `BEYYAL` for three. -/
def sequenceWidth? : Char → Option Nat
  | '\u17a4' => some 2
  | '\u17d8' => some 3
  | _ => none

def charWidth (char : Char) : Nat :=
  match sequenceWidth? char with
  | some width => width
  | none =>
      if CharSet.isUnspaced char then 0
      else if CharSet.wide.contains char then 2
      else 1

end Handshake
