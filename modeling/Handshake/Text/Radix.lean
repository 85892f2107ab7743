set_option autoImplicit false

/-! Numerals with a radix mark. -/

namespace Handshake

def hexadecimal (number : Nat) : String :=
  "0x" ++ String.ofList (Nat.toDigits 16 number)

/-- A number in base two, marked `0b`, with zeros in front up to the given count of
digits. -/
def binary (digits number : Nat) : String :=
  "0b" ++ String.ofList ((Nat.toDigits 2 number).leftpad digits '0')

end Handshake
