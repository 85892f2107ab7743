import Handshake.Checker.Coherence
set_option autoImplicit false

/-! What the checker reports: a broken rule, and the transaction that broke it. -/

namespace Handshake

inductive Side where
  | request
  | response
  deriving DecidableEq

def Side.name : Side → String
  | request => "request"
  | response => "response"

inductive Breach where
  | notHandshake (phase : Phase)
  | acknowledgeNotCoherent
  | stillOpen (phase earlier : Phase)
  | unmatched (phase expected : Phase)
  | acknowledgeNotOwed
  | wrongCommand (phase : Phase) (command : Command)
  | burstOverlap (axiId : Nat) (owner : TxnId) (ownerAxiId : Nat)
  | neverAccepted
  | overtakes (head : TxnId)
  | beatCount (side : Side) (beats length : Nat)
  | byteCount (bytes size length expected : Nat)
  | byteOverrun (bytes offset expected : Nat)
  | attributes (fault : AttributeFault)
  deriving DecidableEq

namespace Breach

def kind : Breach → ViolationKind
  | notHandshake _ | acknowledgeNotCoherent => .illegalPhase
  | stillOpen _ _ | unmatched _ _ | acknowledgeNotOwed => .illegalTransition
  | wrongCommand _ _ => .illegalCommand
  | burstOverlap _ _ _ | neverAccepted | overtakes _ => .ordering
  | beatCount _ _ _ => .burstLength
  | byteCount _ _ _ _ | byteOverrun _ _ _ => .burstSize
  | attributes fault => fault.kind

def message : Breach → String
  | notHandshake phase => phase.name ++ " is not a handshake phase"
  | acknowledgeNotCoherent => "Acknowledge outside of a coherent interface"
  | stillOpen phase earlier => phase.name ++ " while " ++ earlier.name ++ " is still open"
  | unmatched phase expected => phase.name ++ " without a matching " ++ expected.name
  | acknowledgeNotOwed => "Acknowledge without a completed response"
  | wrongCommand phase command =>
      phase.name ++ " is not legal for a " ++ command.name ++ " transaction"
  | burstOverlap axiId owner ownerAxiId =>
      "request burst for id " ++ hexadecimal axiId ++ " starts while the burst of " ++
        owner.name ++ " (id " ++ hexadecimal ownerAxiId ++ ") is still open"
  | neverAccepted => "response for a transaction that was never accepted"
  | overtakes head => "response overtakes " ++ head.name ++ " with the same id"
  | beatCount side beats length =>
      toString beats ++ " " ++ side.name ++ " beats transferred, AxLEN " ++ toString length ++
        " requires " ++ toString (length + 1)
  | byteCount bytes size length expected =>
      toString bytes ++ " bytes transferred, AxSIZE " ++ toString size ++ " and AxLEN " ++
        toString length ++ " require " ++ toString expected
  | byteOverrun bytes offset expected =>
      toString bytes ++ " bytes at offset " ++ toString offset ++ " exceed the " ++
        toString expected ++ "-byte burst"
  | attributes fault => fault.message

end Breach

structure Violation where
  breach : Breach
  txn : TxnId
  axiId : Nat
  address : Nat
  deriving DecidableEq

namespace Violation

def ofBreach (txn : Transaction) (breach : Breach) : Violation :=
  ⟨breach, txn.uid, txn.axiId, txn.address⟩

def kind (violation : Violation) : ViolationKind := violation.breach.kind

/-- The line under which a violation is logged. -/
def text (violation : Violation) : String :=
  "[" ++ violation.kind.name ++ "] " ++ violation.txn.name ++ " (id " ++
    hexadecimal violation.axiId ++ ", addr " ++ hexadecimal violation.address ++ "): " ++
    violation.breach.message

end Violation

end Handshake
