import Handshake.Machine
import Handshake.Transaction.Record
set_option autoImplicit false

/-! Callbacks of a protocol engine. A callback is a function of the transaction's
context: it answers with the beat count and the scratch value that it leaves
behind and with the phases that it wants scheduled. It sees nothing else and
changes nothing else. -/

namespace Handshake

abbrev HandleId := Nat

def HandleId.name (handle : HandleId) : String :=
  "fsm" ++ toString handle

inductive When where
  | after (delay : Time)
  /-- after a delay, on the clock edge that follows -/
  | afterSync (delay : Time)
  /-- after this many clock edges; zero means on the next one -/
  | cycles (count : Nat)
  deriving DecidableEq

/-- A phase that a callback wants scheduled for its own transaction. -/
structure Request where
  phase : Phase
  txn : TxnId
  moment : When
  deriving DecidableEq

structure Context (σ : Type) where
  record : Transaction
  handle : HandleId
  phase : Phase
  beats : Nat
  isSnoop : Bool
  start : Time
  now : Time
  /-- what the engine keeps about this transaction -/
  scratch : σ

structure Effect (σ : Type) where
  beats : Nat
  scratch : σ
  requests : List (Phase × When)

def Context.unchanged {σ : Type} (context : Context σ) : Effect σ :=
  ⟨context.beats, context.scratch, []⟩

abbrev Callback (σ : Type) := Context σ → Effect σ

structure CallbackTable (σ : Type) where
  callback? : Slot → Option (Callback σ)

namespace CallbackTable

variable {σ : Type}

def empty : CallbackTable σ := ⟨fun _ => none⟩

def at? (table : CallbackTable σ) (phase : Phase) : Option (Callback σ) :=
  phase.slot?.bind table.callback?

def isSet (table : CallbackTable σ) (phase : Phase) : Bool := (table.at? phase).isSome

/-- Registers a callback in place of any earlier one. A phase without a slot is
passed over. -/
def set (table : CallbackTable σ) (phase : Phase) (callback : Callback σ) : CallbackTable σ :=
  match phase.slot? with
  | none => table
  | some slot => ⟨fun other => if other = slot then some callback else table.callback? other⟩

/-- What remains of running the callbacks of several slots in turn. -/
structure Run (σ : Type) where
  context : Context σ
  /-- the context in which each callback was called -/
  calls : List (Context σ)
  requests : List Request

/-- Runs the callbacks of the given phases in turn; an empty slot does nothing. -/
def run (table : CallbackTable σ) : List Phase → Context σ → Run σ
  | [], context => ⟨context, [], []⟩
  | phase :: rest, context =>
      match table.at? phase with
      | none => table.run rest context
      | some callback =>
          let called := { context with phase }
          let effect := callback called
          let later := table.run rest
            { called with beats := effect.beats, scratch := effect.scratch }
          let requests := effect.requests.map (fun request =>
            ⟨request.1, context.record.uid, request.2⟩)
          ⟨later.context, called :: later.calls, requests ++ later.requests⟩

end CallbackTable

end Handshake
