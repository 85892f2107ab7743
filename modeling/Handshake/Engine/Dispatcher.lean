import Handshake.Config
import Handshake.Engine.Callback
import Handshake.Queue.Cycle
import Handshake.Queue.Delay
import Handshake.Table
set_option autoImplicit false

/-! The handle pool and the event dispatcher. A dispatcher owns every state-machine
handle it ever allocated, those bound to an active transaction and those idle and
waiting for reuse. Transactions are bound with `bind`, fed with `react`, and have
phases put off with `schedule`.

Every operation yields the dispatcher it leaves, a journal of what happened on the
way, and its answer. The journal is an account only: no operation reads it. -/

namespace Handshake

/-- Where the surrounding engine broke its contract. -/
inductive EngineError where
  | noActiveHandle (txn : TxnId) (event : Phase)
  | noTransition (txn : TxnId) (state : State) (event : Phase)
  deriving DecidableEq

def EngineError.message : EngineError → String
  | .noActiveHandle txn event =>
      "no active handle for " ++ txn.name ++ " (while reacting to " ++ event.name ++ ")"
  | .noTransition txn state event =>
      txn.name ++ ": event " ++ event.name ++ " has no transition from state " ++ state.name

structure Handle (σ : Type) where
  callbacks : CallbackTable σ
  state : State
  /-- the bound transaction; an idle handle has none -/
  record : Option Transaction
  /-- what the callbacks count; the count is to stay in the range of 32 bits -/
  beats : Nat
  isSnoop : Bool
  start : Time

def Handle.fresh {σ : Type} (callbacks : CallbackTable σ) : Handle σ :=
  { callbacks, state := .idle, record := none, beats := 0, isSnoop := false, start := 0 }

inductive Activity (σ : Type) where
  | allocated (handle : HandleId) (poolSize : Nat)
  | recycled (handle : HandleId) (txn : TxnId)
  /-- an early signal ran its callback without moving the machine -/
  | notified (txn : TxnId) (event : Phase)
  | reacting (txn : TxnId) (trigger : Phase)
  | moved (txn : TxnId) (source : State) (trigger : Phase) (target : State)
  | called (context : Context σ)
  | scheduled (request : Request)
  | finished (txn : TxnId) (handle : HandleId)

structure Dispatcher (σ : Type) where
  config : EngineConfig
  /-- the callbacks of a handle, asked for once, on its allocation -/
  wiring : HandleId → CallbackTable σ
  /-- every handle ever allocated, at its index -/
  handles : List (Handle σ)
  active : Table TxnId HandleId
  /-- handles waiting for reuse, the one to be reused next first -/
  idle : List HandleId
  scratch : Table TxnId σ
  delayed : DelayQueue
  clocked : CycleQueue
  /-- requests of callbacks during the current transition -/
  pending : List Request
  now : Time
  /-- how many records were made up for snoops -/
  snoops : Nat
  finished : List TxnId
  finishedCount : Nat

structure Outcome (σ α : Type) where
  dispatcher : Dispatcher σ
  journal : List (Activity σ)
  answer : α

structure PoolStats where
  allocated : Nat
  active : Nat
  idle : Nat
  deriving DecidableEq

/-- Records made up for snoops are numbered from here: the highest of 64 bits is set. -/
def snoopBase : Nat := 0x8000000000000000

/-- The event that a handle's machine is given for a phase. An early write signal
is a mere notification unless it is the configured start of a burst and the machine
is idle. Where an acknowledgment is owed, the end of a response is not the end of
the transaction. -/
def Handle.trigger? {σ : Type} (handle : Handle σ) (config : EngineConfig) (event : Phase) :
    Option Phase :=
  match event with
  | .writeValid | .writeReady =>
      if config.writeStart.trigger? = some event ∧ handle.state = .idle then some event else none
  | .endResponse =>
      if config.ack && !handle.isSnoop then some .endResponseNoAck else some .endResponse
  | other => some other

namespace Dispatcher

variable {σ : Type}

def new (config : EngineConfig) (wiring : HandleId → CallbackTable σ) : Dispatcher σ :=
  { config
    wiring
    handles := []
    active := .empty
    idle := []
    scratch := .empty
    delayed := .empty
    clocked := .empty
    pending := []
    now := 0
    snoops := 0
    finished := []
    finishedCount := 0 }

/-! ### Binding -/

def pick (dispatcher : Dispatcher σ) (txn : TxnId) : Outcome σ HandleId :=
  match dispatcher.idle with
  | handle :: rest => ⟨{ dispatcher with idle := rest }, [.recycled handle txn], handle⟩
  | [] =>
      let handle := dispatcher.handles.length
      ⟨{ dispatcher with
          handles := dispatcher.handles ++ [.fresh (dispatcher.wiring handle)] },
        [.allocated handle (handle + 1)], handle⟩

def occupy [Inhabited σ] (dispatcher : Dispatcher σ) (handle : HandleId) (record : Transaction)
    (isSnoop : Bool) : Dispatcher σ :=
  { dispatcher with
    handles := dispatcher.handles.modify handle (fun old =>
      { old with
        state := .idle, record := some record, beats := 0, isSnoop, start := dispatcher.now })
    scratch := dispatcher.scratch.insert record.uid default
    active := dispatcher.active.insert record.uid handle }

/-- The handle of a record. A transaction that is active already keeps its handle
and only has its start time renewed. -/
def bindRecord [Inhabited σ] (dispatcher : Dispatcher σ) (record : Transaction)
    (isSnoop : Bool) : Outcome σ HandleId :=
  match dispatcher.active.get? record.uid with
  | some handle =>
      ⟨{ dispatcher with
          handles := dispatcher.handles.modify handle (fun old =>
            { old with start := dispatcher.now }) }, [], handle⟩
  | none =>
      let picked := dispatcher.pick record.uid
      { picked with dispatcher := picked.dispatcher.occupy picked.answer record isSnoop }

/-- The handle of a transaction. Without a record one is made up, for a snoop, and
lives as long as the handle stays bound. -/
def bind [Inhabited σ] (dispatcher : Dispatcher σ) (record : Option Transaction)
    (isSnoop : Bool) : Outcome σ HandleId :=
  match record with
  | some record => dispatcher.bindRecord record isSnoop
  | none =>
      { dispatcher with snoops := dispatcher.snoops + 1 }.bindRecord
        (.forSnoop ⟨snoopBase + dispatcher.snoops⟩) isSnoop

/-! ### Scheduling -/

def schedule (dispatcher : Dispatcher σ) (request : Request) : Dispatcher σ :=
  match request.moment with
  | .after delay =>
      { dispatcher with
        delayed := dispatcher.delayed.push (dispatcher.now + delay)
          ⟨request.phase, request.txn, false⟩ }
  | .afterSync delay =>
      { dispatcher with
        delayed := dispatcher.delayed.push (dispatcher.now + delay)
          ⟨request.phase, request.txn, true⟩ }
  | .cycles count =>
      { dispatcher with
        clocked := dispatcher.clocked.push ⟨request.phase, request.txn, count⟩ }

def applyPending (dispatcher : Dispatcher σ) : Outcome σ Unit :=
  ⟨dispatcher.pending.foldl schedule { dispatcher with pending := [] },
    dispatcher.pending.map .scheduled, ()⟩

/-! ### Reacting -/

/-- An active transaction with what a reaction needs to know of it. -/
structure Bound (σ : Type) where
  id : HandleId
  handle : Handle σ
  record : Transaction
  scratch : σ

def bound? [Inhabited σ] (dispatcher : Dispatcher σ) (txn : TxnId) : Option (Bound σ) := do
  let id ← dispatcher.active.get? txn
  let handle ← dispatcher.handles[id]?
  let record ← handle.record
  some ⟨id, handle, record, (dispatcher.scratch.get? txn).getD default⟩

/-- Brings the machine to its next state, runs the callbacks of the fired slots, and
then schedules what they asked for. -/
def advanceMachine (dispatcher : Dispatcher σ) (txn : TxnId) (bound : Bound σ) (event : Phase)
    (next : State) (fired : List Phase) : Outcome σ Unit :=
  let run := bound.handle.callbacks.run fired
    { record := bound.record
      handle := bound.id
      phase := event
      beats := bound.handle.beats
      isSnoop := bound.handle.isSnoop
      start := bound.handle.start
      now := dispatcher.now
      scratch := bound.scratch }
  let settled := applyPending
    { dispatcher with
      handles := dispatcher.handles.set bound.id
        { bound.handle with state := next, beats := run.context.beats }
      scratch := dispatcher.scratch.insert txn run.context.scratch
      pending := dispatcher.pending ++ run.requests }
  { settled with journal := run.calls.map .called ++ settled.journal }

def ensureScratch [Inhabited σ] (dispatcher : Dispatcher σ) (txn : TxnId) : Dispatcher σ :=
  { dispatcher with scratch := dispatcher.scratch.insertNew txn default }

def retire (dispatcher : Dispatcher σ) (txn : TxnId) (handle : HandleId) : Dispatcher σ :=
  { dispatcher with
    active := dispatcher.active.erase txn
    scratch := dispatcher.scratch.erase txn
    handles := dispatcher.handles.modify handle (fun old => { old with record := none })
    idle := handle :: dispatcher.idle
    finished := dispatcher.finished ++ [txn]
    finishedCount := dispatcher.finishedCount + 1 }

/-- Feeds a phase to the machine of a transaction. It fails if the transaction is not
active or the phase graph does not allow the phase. -/
def react [Inhabited σ] (dispatcher : Dispatcher σ) (event : Phase) (txn : TxnId) :
    Outcome σ (Except EngineError Unit) :=
  match dispatcher.bound? txn with
  | none => ⟨dispatcher, [], .error (.noActiveHandle txn event)⟩
  | some bound =>
      match bound.handle.trigger? dispatcher.config event with
      | none =>
          let done := dispatcher.advanceMachine txn bound event bound.handle.state [event]
          ⟨done.dispatcher, .notified txn event :: done.journal, .ok ()⟩
      | some trigger =>
          match bound.handle.state.step trigger with
          | none =>
              -- asking for the scratch value has made one where there was none
              ⟨dispatcher.ensureScratch txn, [.reacting txn trigger],
                .error (.noTransition txn bound.handle.state trigger)⟩
          | some move =>
              let done := dispatcher.advanceMachine txn bound trigger move.next move.fired
              let journal := .reacting txn trigger ::
                .moved txn bound.handle.state trigger move.next :: done.journal
              if move.next = .idle then
                ⟨done.dispatcher.retire txn bound.id, journal ++ [.finished txn bound.id], .ok ()⟩
              else ⟨done.dispatcher, journal, .ok ()⟩

/-! ### Questions -/

def isActive (dispatcher : Dispatcher σ) (txn : TxnId) : Bool := dispatcher.active.contains txn

def handle? (dispatcher : Dispatcher σ) (txn : TxnId) : Option (Handle σ) :=
  (dispatcher.active.get? txn).bind (fun id => dispatcher.handles[id]?)

def state? (dispatcher : Dispatcher σ) (txn : TxnId) : Option State :=
  (dispatcher.handle? txn).map Handle.state

def start? (dispatcher : Dispatcher σ) (txn : TxnId) : Option Time :=
  (dispatcher.handle? txn).map Handle.start

def record? (dispatcher : Dispatcher σ) (handle : HandleId) : Option Transaction :=
  dispatcher.handles[handle]?.bind Handle.record

def activeTransactions (dispatcher : Dispatcher σ) : List TxnId :=
  dispatcher.active.keys.mergeSort (fun left right => left.number ≤ right.number)

def pool (dispatcher : Dispatcher σ) : PoolStats :=
  ⟨dispatcher.handles.length, dispatcher.active.size, dispatcher.idle.length⟩

/-- Collects the transactions that finished since the last collection. -/
def drainFinished (dispatcher : Dispatcher σ) : List TxnId × Dispatcher σ :=
  (dispatcher.finished, { dispatcher with finished := [] })

end Dispatcher

end Handshake
