import Handshake.Checker.Basic
import Handshake.Engine.Journal
import Handshake.Engine.Time
import Handshake.Trace.Basic
set_option autoImplicit false

/-! Replaying a trace. Every event is first shown to the checker and then fed to a
dispatcher whose callbacks follow the progress of each transaction. An engine error
ends the replay; a transaction that is still active at the end of the trace has
leaked. -/

namespace Handshake

structure Timeline where
  responseBegan : Option Time
  deriving DecidableEq

instance : Inhabited Timeline := ⟨⟨none⟩⟩

structure Completion where
  txn : TxnId
  beats : Nat
  started : Time
  responseBegan : Option Time
  finished : Time
  deriving DecidableEq

structure Summary where
  events : Nat
  violations : Nat
  completions : List Completion
  leaked : List TxnId
  pool : PoolStats
  /-- what ended the replay early, if anything did -/
  stopped : Option Stop
  deriving DecidableEq

namespace Summary

def isClean (summary : Summary) : Bool :=
  summary.violations = 0 && summary.stopped.isNone

def text (summary : Summary) : String :=
  "events: " ++ toString summary.events ++ ", violations: " ++ toString summary.violations ++
    ", finished: " ++ toString summary.completions.length ++ ", leaked: " ++
    toString summary.leaked.length ++ ", handles: " ++ toString summary.pool.allocated ++
    " allocated (" ++ toString summary.pool.active ++ " active, " ++
    toString summary.pool.idle ++ " idle)" ++
    (match summary.stopped with
      | some stop => ", stopped: " ++ stop.message
      | none => "")

end Summary

/-! ### Diagnostics -/

def Violation.diagnostic (violation : Violation) : Diagnostic :=
  .general .error (violation.kind.name ++ " violation: " ++ violation.breach.message)
    ["transaction " ++ violation.txn.name ++ " with id " ++ hexadecimal violation.axiId ++
      " at address " ++ hexadecimal violation.address]

def Checker.diagnostics (checker : Checker) : List Diagnostic :=
  checker.violations.map Violation.diagnostic

def Stop.diagnostic (stop : Stop) : Diagnostic := .general .fatal stop.message []

namespace Replay

/-! ### Callbacks -/

def noteResponse : Callback Timeline := fun context =>
  { context.unchanged with scratch := ⟨some context.now⟩ }

def countBeat : Callback Timeline := fun context =>
  { context.unchanged with beats := context.beats + 1 }

/-- The callbacks of every handle. Those at the end of a response and at an
acknowledgment change nothing; that they were called is what the journal keeps. -/
def callbacks : CallbackTable Timeline :=
  ((((CallbackTable.empty.set .responsePhaseBegin noteResponse).set
    .endPartialRequest countBeat).set .endPartialResponse countBeat).set
    .endResponse Context.unchanged).set .acknowledge Context.unchanged

/-- The completion that a call tells of. The end of a response completes a transaction
that owes no acknowledgment, and the acknowledgment completes one that does. -/
def completion? (ack : Bool) (context : Context Timeline) : Option Completion :=
  if context.phase = .acknowledge ∨
      (context.phase = .endResponse ∧ (¬ ack ∨ context.isSnoop)) then
    some ⟨context.record.uid, context.beats + 1, context.start, context.scratch.responseBegan,
      context.now⟩
  else none

def Activity.completion? (ack : Bool) : Activity Timeline → Option Completion
  | .called context => Replay.completion? ack context
  | _ => none

/-! ### Events -/

structure Replayer where
  dispatcher : Dispatcher Timeline
  checker : Checker
  completions : List Completion
  log : List Log.Line

namespace Replayer

def new (engine : EngineConfig) (checker : CheckerConfig) : Replayer :=
  ⟨.new engine (fun _ => callbacks), .new checker, [], []⟩

def take {α : Type} (replayer : Replayer) (outcome : Outcome Timeline α) : Replayer :=
  { replayer with
    dispatcher := outcome.dispatcher
    completions := replayer.completions ++
      outcome.journal.filterMap (Activity.completion? replayer.dispatcher.config.ack)
    log := replayer.log ++ outcome.journal.filterMap Activity.logLine? }

def check (replayer : Replayer) (event : Trace.Event) : Replayer :=
  let found := (replayer.checker.breaches event.phase event.record).map
    (Violation.ofBreach event.record)
  { replayer with
    checker := replayer.checker.observe event.phase event.record
    log := replayer.log ++
      ⟨.debug, .checker, "check " ++ event.direction.name ++ " " ++ event.phase.name ++ " " ++
        event.record.uid.name⟩ ::
      found.map (fun violation => ⟨.warn, .checker, violation.text⟩) }

def declare (replayer : Replayer) (event : Trace.Event) : Replayer :=
  if event.declares then
    replayer.take (replayer.dispatcher.bind (some event.record) event.record.snoopOnly)
  else replayer

/-- Feeds an event to the dispatcher; pure time points are passed over. -/
def feed (replayer : Replayer) (event : Trace.Event) : Replayer × Option Stop :=
  match event.phase with
  | .requestPhaseBegin | .responsePhaseBegin => (replayer, none)
  | phase =>
      let reaction := replayer.dispatcher.react phase event.record.uid
      (replayer.take reaction,
        match reaction.answer with
        | .ok () => none
        | .error error => some (.failed error))

/-- Processes one event. The callbacks of a replay schedule nothing, so nothing is ever
due and time needs no budget. -/
def step (replayer : Replayer) (event : Trace.Event) : Replayer × Option Stop :=
  let arrival := replayer.dispatcher.runUntil 0 event.time
  let arrived := replayer.take arrival
  match arrival.answer with
  | .error stop => (arrived, some stop)
  | .ok () => ((arrived.check event).declare event).feed event

end Replayer

structure Ending where
  replayer : Replayer
  /-- events processed, the one that ended the replay included -/
  events : Nat
  stopped : Option Stop

def processAll : Replayer → List Trace.Event → Ending
  | replayer, [] => ⟨replayer, 0, none⟩
  | replayer, event :: rest =>
      match replayer.step event with
      | (after, some stop) =>
          ⟨{ after with
              log := after.log ++
                [⟨.error, .replay, "line " ++ toString event.line ++ ": " ++ stop.message⟩] },
            1, some stop⟩
      | (after, none) =>
          let later := processAll after rest
          { later with events := later.events + 1 }

/-! ### The whole trace -/

structure Leak where
  txn : TxnId
  label : String
  state : String

namespace Leak

def logLine (leak : Leak) : Log.Line :=
  ⟨.warn, .replay, leak.label ++ " (" ++ leak.txn.name ++ ") never completed"⟩

def diagnostic (leak : Leak) : Diagnostic :=
  .general .warning ("transaction `" ++ leak.label ++ "` never completed")
    ["its handle is still active in state " ++ leak.state]

end Leak

def leaks (trace : Trace) (ending : Ending) : List Leak :=
  match ending.stopped with
  | some _ => []
  | none =>
      ending.replayer.dispatcher.activeTransactions.map (fun txn =>
        ⟨txn, (trace.label? txn).getD "?",
          ((ending.replayer.dispatcher.state? txn).map State.name).getD "?"⟩)

structure Result where
  summary : Summary
  diagnostics : List Diagnostic
  log : List Log.Line

end Replay

/-- Replays a trace. What stopped it is reported first, then the violations, then the
leaks. -/
def Trace.replay (trace : Trace) (engine : EngineConfig) (checker : CheckerConfig) :
    Replay.Result :=
  let ending := Replay.processAll (.new engine checker) trace.events
  let leaks := Replay.leaks trace ending
  let summary : Summary :=
    { events := ending.events
      violations := ending.replayer.checker.violations.length
      completions := ending.replayer.completions
      leaked := leaks.map Replay.Leak.txn
      pool := ending.replayer.dispatcher.pool
      stopped := ending.stopped }
  { summary
    diagnostics := ending.stopped.toList.map Stop.diagnostic ++
      ending.replayer.checker.diagnostics ++ leaks.map Replay.Leak.diagnostic
    log := ending.replayer.log ++ leaks.map Replay.Leak.logLine ++
      [⟨.info, .replay, summary.text⟩] }

end Handshake
