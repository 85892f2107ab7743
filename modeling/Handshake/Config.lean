import Handshake.Phase
set_option autoImplicit false

/-! Construction-time configuration of the dispatcher and of the checker. -/

namespace Handshake

/-- Which time point begins a write burst. -/
inductive WriteStart where
  | request
  | writeValid
  | writeReady
  deriving DecidableEq

namespace WriteStart

def name : WriteStart → String
  | request => "request"
  | writeValid => "wvalid"
  | writeReady => "wready"

def all : List WriteStart := [request, writeValid, writeReady]

/-- The early signal that takes an idle machine into its write burst, if any. -/
def trigger? : WriteStart → Option Phase
  | request => none
  | writeValid => some .writeValid
  | writeReady => some .writeReady

end WriteStart

structure EngineConfig where
  busWidth : Nat := 8
  /-- whether reads and writes owe an acknowledgment after their response -/
  ack : Bool := false
  writeStart : WriteStart := .request
  deriving DecidableEq

structure CheckerConfig where
  busWidth : Nat := 8
  /-- whether the coherence rules on attributes apply -/
  ace : Bool := false
  cacheLine : Nat := 64
  deriving DecidableEq

end Handshake
