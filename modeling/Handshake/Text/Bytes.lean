set_option autoImplicit false

/-! The length of a text in bytes of its UTF-8 encoding. -/

namespace Handshake

def byteCount : List Char → Nat
  | [] => 0
  | char :: rest => char.utf8Size + byteCount rest

end Handshake
