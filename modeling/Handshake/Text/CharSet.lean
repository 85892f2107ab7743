set_option autoImplicit false

/-! Sets of characters, given by ranges of code points. -/

namespace Handshake

/-- Ranges of code points, ends included. -/
structure CharSet where
  ranges : List (Nat × Nat)

namespace CharSet

def contains (set : CharSet) (char : Char) : Bool :=
  set.ranges.any (fun range => range.1 ≤ char.toNat && char.toNat ≤ range.2)

end CharSet

end Handshake
