import Handshake.Engine.Time
set_option autoImplicit false

/-! The calls that a host makes of a dispatcher, and runs of such calls. A run goes on
after a call that failed, on whatever dispatcher that call left. -/

namespace Handshake

inductive Operation where
  | bind (record : Option Transaction) (isSnoop : Bool)
  | react (event : Phase) (txn : TxnId)
  | schedule (request : Request)
  | advanceTo (time : Time) (budget : Nat)
  | clockEdge
  | drainFinished

namespace Dispatcher

variable {σ : Type} [Inhabited σ]

/-- The dispatcher that a call leaves, whatever it answers. -/
def perform (dispatcher : Dispatcher σ) : Operation → Dispatcher σ
  | .bind record isSnoop => (dispatcher.bind record isSnoop).dispatcher
  | .react event txn => (dispatcher.react event txn).dispatcher
  | .schedule request => dispatcher.schedule request
  | .advanceTo time budget => (dispatcher.advanceTo time budget).dispatcher
  | .clockEdge => dispatcher.clockEdge.dispatcher
  | .drainFinished => dispatcher.drainFinished.2

def performAll (dispatcher : Dispatcher σ) (operations : List Operation) : Dispatcher σ :=
  operations.foldl perform dispatcher

def identity (dispatcher : Dispatcher σ) : Option Transaction → TxnId
  | some record => record.uid
  | none => ⟨snoopBase + dispatcher.snoops⟩

/-- A call makes a binding if it asks for the handle of a transaction that has none. -/
def bindingsMade (dispatcher : Dispatcher σ) : Operation → Nat
  | .bind record _ => if dispatcher.isActive (dispatcher.identity record) then 0 else 1
  | .react _ _ | .schedule _ | .advanceTo _ _ | .clockEdge | .drainFinished => 0

def bindingsOf (dispatcher : Dispatcher σ) : List Operation → Nat
  | [] => 0
  | first :: rest =>
      dispatcher.bindingsMade first + (dispatcher.perform first).bindingsOf rest

end Dispatcher

end Handshake
