set_option autoImplicit false

/-! The categories of protocol violations. -/

namespace Handshake

inductive ViolationKind where
  | illegalPhase
  | illegalTransition
  | illegalCommand
  | ordering
  /-- a beat count that the length field does not announce -/
  | burstLength
  | burstSize
  /-- barrier, domain and snoop type that do not go together -/
  | attributeCombination
  | cacheAttribute
  | barrier
  | cacheMaintenance
  deriving DecidableEq

def ViolationKind.name : ViolationKind → String
  | illegalPhase => "illegal phase"
  | illegalTransition => "illegal transition"
  | illegalCommand => "illegal command"
  | ordering => "ordering"
  | burstLength => "burst length"
  | burstSize => "burst size"
  | attributeCombination => "attribute combination"
  | cacheAttribute => "cache attribute"
  | barrier => "barrier"
  | cacheMaintenance => "cache maintenance"

end Handshake
