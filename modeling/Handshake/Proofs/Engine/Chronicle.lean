import Handshake.Proofs.Engine.Operation
import Handshake.Proofs.Engine.Reaction
set_option autoImplicit false

/-! The chronicle of a run. What the calls of a host do to the clock and the two queues of a
dispatcher is told by a list of occurrences: a phase is put off, an entry leaves the delay
queue, the clock is set to a time that all due entries have left for, the cycle queue gets an
edge. Every call takes its dispatcher along the path that its occurrences describe, so what
holds along all such paths holds of every run. -/

namespace Handshake

structure Agenda where
  now : Time
  delayed : DelayQueue
  clocked : CycleQueue

inductive Occurrence where
  | scheduled (time : Time) (request : Request)
  /-- an entry leaves the delay queue, to the cycle queue if it waits for a clock edge and to
  be reacted to otherwise -/
  | left (entry : Delayed)
  /-- everything due by a time has left -/
  | reached (time : Time)
  | edge
  deriving DecidableEq

namespace Agenda

def schedule (agenda : Agenda) (request : Request) : Agenda :=
  match request.moment with
  | .after delay =>
      { agenda with
        delayed := agenda.delayed.push (agenda.now + delay) ⟨request.phase, request.txn, false⟩ }
  | .afterSync delay =>
      { agenda with
        delayed := agenda.delayed.push (agenda.now + delay) ⟨request.phase, request.txn, true⟩ }
  | .cycles count =>
      { agenda with clocked := agenda.clocked.push ⟨request.phase, request.txn, count⟩ }

def release (agenda : Agenda) (entry : Delayed) (rest : DelayQueue) : Agenda :=
  { now := max agenda.now entry.due
    delayed := rest
    clocked :=
      if entry.sync then agenda.clocked.push ⟨entry.phase, entry.txn, 0⟩ else agenda.clocked }

/-- What each occurrence does, and when it can take place. -/
inductive Step : Agenda → Occurrence → Agenda → Prop where
  | scheduled (agenda : Agenda) (request : Request) :
      Step agenda (.scheduled agenda.now request) (agenda.schedule request)
  | left (agenda : Agenda) (time : Time) (entry : Delayed) (rest : DelayQueue)
      (popped : agenda.delayed.popDue? time = some (entry, rest)) :
      Step agenda (.left entry) (agenda.release entry rest)
  | reached (agenda : Agenda) (time : Time) (dry : agenda.delayed.popDue? time = none) :
      Step agenda (.reached time) { agenda with now := max agenda.now time }
  | edge (agenda : Agenda) :
      Step agenda .edge { agenda with clocked := agenda.clocked.tick.2 }

inductive Path (start : Agenda) : List Occurrence → Agenda → Prop where
  | nil : Path start [] start
  | snoc {before : List Occurrence} {occurrence : Occurrence} {reached next : Agenda}
      (earlier : Path start before reached) (step : Step reached occurrence next) :
      Path start (before ++ [occurrence]) next

namespace Path

variable {start middle final : Agenda} {before after : List Occurrence} {occurrence : Occurrence}

theorem single (step : Step start occurrence final) : Path start [occurrence] final :=
  snoc nil step

theorem append (earlier : Path start before middle) (later : Path middle after final) :
    Path start (before ++ after) final := by
  induction later with
  | nil =>
      rw [List.append_nil]
      exact earlier
  | snoc _ step ih =>
      rw [← List.append_assoc]
      exact snoc ih step

theorem cons (step : Step start occurrence middle) (later : Path middle after final) :
    Path start (occurrence :: after) final :=
  append (single step) later

end Path

end Agenda

/-! ### Occurrences of a call -/

def Activity.request? {σ : Type} : Activity σ → Option Request
  | .scheduled request => some request
  | _ => none

def scheduledIn {σ : Type} (time : Time) (journal : List (Activity σ)) : List Occurrence :=
  (journal.filterMap Activity.request?).map (.scheduled time)

section

variable {σ : Type} (time : Time)

theorem scheduledIn_append (before after : List (Activity σ)) :
    scheduledIn time (before ++ after) = scheduledIn time before ++ scheduledIn time after := by
  simp only [scheduledIn, List.filterMap_append, List.map_append]

theorem scheduledIn_called (calls : List (Context σ)) :
    scheduledIn time (calls.map .called) = [] := by
  induction calls with
  | nil => rfl
  | cons first rest ih => exact ih

theorem scheduledIn_scheduled (requests : List Request) :
    scheduledIn (σ := σ) time (requests.map .scheduled) = requests.map (.scheduled time) := by
  induction requests with
  | nil => rfl
  | cons first rest ih => exact congrArg (.scheduled time first :: ·) ih

end

/-- An entry that leaves the delay queue, and the dispatcher that it is delivered to: it is
at the entry's due time and no longer holds the entry. -/
structure Turn (σ : Type) where
  entry : Delayed
  dispatcher : Dispatcher σ

namespace Turn

variable {σ : Type} [Inhabited σ]

def outcome (turn : Turn σ) : Outcome σ (Except EngineError Nat) :=
  turn.dispatcher.deliver turn.entry.toDeferred

def chronicle (turn : Turn σ) : List Occurrence :=
  .left turn.entry :: scheduledIn turn.dispatcher.now turn.outcome.journal

end Turn

namespace Dispatcher

variable {σ : Type}

def agenda (dispatcher : Dispatcher σ) : Agenda :=
  ⟨dispatcher.now, dispatcher.delayed, dispatcher.clocked⟩

def turn? (dispatcher : Dispatcher σ) (time : Time) : Option (Turn σ) :=
  (dispatcher.delayed.popDue? time).map (fun (entry, rest) =>
    ⟨entry, { dispatcher with delayed := rest, now := max dispatcher.now entry.due }⟩)

variable [Inhabited σ]

/-- The turns of a call of `advanceTo`, up to the first that fails and with it. -/
def turns (time : Time) : Nat → Dispatcher σ → List (Turn σ)
  | 0, _ => []
  | budget + 1, dispatcher =>
      match dispatcher.turn? time with
      | none => []
      | some turn =>
          turn ::
            match turn.outcome.answer with
            | .error _ => []
            | .ok _ => turns time budget turn.outcome.dispatcher

def chronicle (dispatcher : Dispatcher σ) : Operation → List Occurrence
  | .bind _ _ | .drainFinished => []
  | .react event txn => scheduledIn dispatcher.now (dispatcher.react event txn).journal
  | .schedule request => [.scheduled dispatcher.now request]
  | .advanceTo time budget =>
      (dispatcher.turns time budget).flatMap Turn.chronicle ++
        match (dispatcher.advanceTo time budget).answer with
        | .ok _ => [.reached time]
        | .error _ => []
  | .clockEdge => .edge :: scheduledIn dispatcher.now dispatcher.clockEdge.journal

def chronicleAll (dispatcher : Dispatcher σ) : List Operation → List Occurrence
  | [] => []
  | first :: rest => dispatcher.chronicle first ++ (dispatcher.perform first).chronicleAll rest

theorem chronicleAll_append (dispatcher : Dispatcher σ) (before after : List Operation) :
    dispatcher.chronicleAll (before ++ after) =
      dispatcher.chronicleAll before ++ (dispatcher.performAll before).chronicleAll after := by
  induction before generalizing dispatcher with
  | nil => rfl
  | cons first rest ih =>
      rw [List.cons_append, chronicleAll, ih, chronicleAll, List.append_assoc]
      rfl

/-! ### Turns -/

theorem deliverNext?_eq (dispatcher : Dispatcher σ) (time : Time) :
    dispatcher.deliverNext? time = (dispatcher.turn? time).map Turn.outcome := by
  rw [turn?, Option.map_map]
  rfl

variable {dispatcher : Dispatcher σ} {time : Time} {budget : Nat} {turn : Turn σ}

theorem advanceTo_of_turn?_eq_none (dry : dispatcher.turn? time = none) :
    dispatcher.advanceTo time budget =
      ⟨{ dispatcher with now := max dispatcher.now time }, [], .ok 0⟩ := by
  have nothing : dispatcher.deliverNext? time = none := by rw [deliverNext?_eq, dry]; rfl
  cases budget <;> simp only [advanceTo, nothing]

theorem turns_of_turn?_eq_none (dry : dispatcher.turn? time = none) :
    dispatcher.turns time budget = [] := by
  cases budget <;> simp only [turns, dry]

theorem advanceTo_zero_of_turn? (due : dispatcher.turn? time = some turn) :
    dispatcher.advanceTo time 0 = ⟨dispatcher, [], .error .unfinished⟩ := by
  have next : dispatcher.deliverNext? time = some turn.outcome := by rw [deliverNext?_eq, due]; rfl
  simp only [advanceTo, next]

theorem advanceTo_succ_of_error (due : dispatcher.turn? time = some turn) {error : EngineError}
    (fails : turn.outcome.answer = .error error) :
    dispatcher.advanceTo time (budget + 1) =
      ⟨turn.outcome.dispatcher, turn.outcome.journal, .error (.failed error)⟩ := by
  have next : dispatcher.deliverNext? time = some turn.outcome := by rw [deliverNext?_eq, due]; rfl
  simp only [advanceTo, next, fails]

theorem advanceTo_succ_of_ok (due : dispatcher.turn? time = some turn) {reacted : Nat}
    (done : turn.outcome.answer = .ok reacted) :
    dispatcher.advanceTo time (budget + 1) =
      ⟨(turn.outcome.dispatcher.advanceTo time budget).dispatcher,
        turn.outcome.journal ++ (turn.outcome.dispatcher.advanceTo time budget).journal,
        (turn.outcome.dispatcher.advanceTo time budget).answer.map (reacted + ·)⟩ := by
  have next : dispatcher.deliverNext? time = some turn.outcome := by rw [deliverNext?_eq, due]; rfl
  simp only [advanceTo, next, done]

theorem turns_succ_of_error (due : dispatcher.turn? time = some turn) {error : EngineError}
    (fails : turn.outcome.answer = .error error) :
    dispatcher.turns time (budget + 1) = [turn] := by
  simp only [turns, due, fails]

theorem turns_succ_of_ok (due : dispatcher.turn? time = some turn) {reacted : Nat}
    (done : turn.outcome.answer = .ok reacted) :
    dispatcher.turns time (budget + 1) =
      turn :: turn.outcome.dispatcher.turns time budget := by
  simp only [turns, due, done]

inductive Advance (time : Time) : Nat → Dispatcher σ → Prop where
  | dry {budget : Nat} {dispatcher : Dispatcher σ} (dry : dispatcher.turn? time = none) :
      Advance time budget dispatcher
  | spent {dispatcher : Dispatcher σ} {turn : Turn σ} (due : dispatcher.turn? time = some turn) :
      Advance time 0 dispatcher
  | failed {budget : Nat} {dispatcher : Dispatcher σ} {turn : Turn σ} {error : EngineError}
      (due : dispatcher.turn? time = some turn) (fails : turn.outcome.answer = .error error) :
      Advance time (budget + 1) dispatcher
  | turned {budget : Nat} {dispatcher : Dispatcher σ} {turn : Turn σ} {reacted : Nat}
      (due : dispatcher.turn? time = some turn) (done : turn.outcome.answer = .ok reacted)
      (later : Advance time budget turn.outcome.dispatcher) :
      Advance time (budget + 1) dispatcher

theorem advance (time : Time) (budget : Nat) (dispatcher : Dispatcher σ) :
    Advance time budget dispatcher := by
  induction budget generalizing dispatcher with
  | zero =>
      cases due : dispatcher.turn? time with
      | none => exact .dry due
      | some turn => exact .spent due
  | succ budget ih =>
      cases due : dispatcher.turn? time with
      | none => exact .dry due
      | some turn =>
          cases answer : turn.outcome.answer with
          | error error => exact .failed due answer
          | ok reacted => exact .turned due answer (ih turn.outcome.dispatcher)

/-! ### A call follows its chronicle -/

open Agenda in
omit [Inhabited σ] in
theorem path_foldl_schedule {start : Agenda} (requests : List Request)
    (dispatcher : Dispatcher σ) (same : dispatcher.agenda = start) :
    Path start (requests.map (.scheduled start.now)) (requests.foldl schedule dispatcher).agenda ∧
      (requests.foldl schedule dispatcher).now = start.now := by
  subst same
  induction requests generalizing dispatcher with
  | nil => exact ⟨.nil, rfl⟩
  | cons request rest ih =>
      have one : Step dispatcher.agenda (.scheduled dispatcher.now request)
          (dispatcher.schedule request).agenda := by
        have step := Step.scheduled dispatcher.agenda request
        obtain ⟨phase, txn, moment⟩ := request
        cases moment <;> exact step
      have still : (dispatcher.schedule request).agenda.now = dispatcher.agenda.now := by
        obtain ⟨delayed, clocked, scheduled⟩ := dispatcher.schedule_eq request
        rw [scheduled]
        rfl
      obtain ⟨later, stillLater⟩ := ih (dispatcher.schedule request)
      rw [still] at later stillLater
      exact ⟨.cons one later, stillLater⟩

open Agenda in
omit [Inhabited σ] in
theorem path_advanceMachine (dispatcher : Dispatcher σ) (txn : TxnId) (bound : Bound σ)
    (event : Phase) (next : State) (fired : List Phase) :
    Path dispatcher.agenda
        (scheduledIn dispatcher.now
          (dispatcher.advanceMachine txn bound event next fired).journal)
        (dispatcher.advanceMachine txn bound event next fired).dispatcher.agenda ∧
      (dispatcher.advanceMachine txn bound event next fired).dispatcher.now =
        dispatcher.now := by
  simp only [advanceMachine, applyPending, scheduledIn_append, scheduledIn_called,
    scheduledIn_scheduled, List.nil_append]
  exact path_foldl_schedule _ _ rfl

open Agenda in
theorem path_react (dispatcher : Dispatcher σ) (event : Phase) (txn : TxnId) :
    Path dispatcher.agenda
        (scheduledIn dispatcher.now (dispatcher.react event txn).journal)
        (dispatcher.react event txn).dispatcher.agenda ∧
      (dispatcher.react event txn).dispatcher.now = dispatcher.now := by
  have reaction := dispatcher.react_reaction event txn
  generalize dispatcher.react event txn = outcome at reaction ⊢
  cases reaction with
  | unbound absent => exact ⟨.nil, rfl⟩
  | notified bound found early => exact dispatcher.path_advanceMachine ..
  | refused bound found trigger given stuck => exact ⟨.nil, rfl⟩
  | moved bound found trigger given move step busy => exact dispatcher.path_advanceMachine ..
  | finished bound found trigger given move step finishes =>
      have moved := dispatcher.path_advanceMachine txn bound trigger move.next move.fired
      rw [scheduledIn_append]
      simp only [scheduledIn, List.filterMap_cons, Activity.request?, List.filterMap_nil,
        List.map_nil, List.append_nil]
      exact moved

open Agenda in
theorem path_reactAll (entries : List Waiting) (dispatcher : Dispatcher σ) :
    Path dispatcher.agenda
        (scheduledIn dispatcher.now (dispatcher.reactAll entries).journal)
        (dispatcher.reactAll entries).dispatcher.agenda := by
  induction entries generalizing dispatcher with
  | nil => exact .nil
  | cons entry rest ih =>
      obtain ⟨first, still⟩ := dispatcher.path_react entry.phase entry.txn
      unfold reactAll
      simp only
      split
      · exact first
      · have later := ih (dispatcher.react entry.phase entry.txn).dispatcher
        rw [still] at later
        rw [scheduledIn_append]
        exact first.append later

omit [Inhabited σ] in
theorem turn?_eq_some_iff {turn : Turn σ} {time : Time} :
    dispatcher.turn? time = some turn ↔
      ∃ rest, dispatcher.delayed.popDue? time = some (turn.entry, rest) ∧
        turn.dispatcher =
          { dispatcher with delayed := rest, now := max dispatcher.now turn.entry.due } := by
  constructor
  · intro due
    obtain ⟨⟨entry, rest⟩, popped, rfl⟩ := Option.map_eq_some_iff.mp due
    exact ⟨rest, popped, rfl⟩
  · rintro ⟨rest, popped, reached⟩
    obtain ⟨entry, atDue⟩ := turn
    simp only at popped reached
    subst reached
    rw [turn?, popped]
    rfl

open Agenda in
theorem path_turn (due : dispatcher.turn? time = some turn) :
    Path dispatcher.agenda turn.chronicle turn.outcome.dispatcher.agenda := by
  obtain ⟨rest, popped, reached⟩ := turn?_eq_some_iff.mp due
  have leaves : Step dispatcher.agenda (.left turn.entry)
      (dispatcher.agenda.release turn.entry rest) := .left _ time _ _ popped
  unfold Turn.chronicle Turn.outcome deliver
  cases sync : turn.entry.sync with
  | true =>
      simp only [if_true]
      have moved := Path.single leaves
      rw [release, sync, if_pos rfl] at moved
      rw [reached]
      exact moved
  | false =>
      simp only [Bool.false_eq_true, if_false]
      rw [release, sync, if_neg Bool.false_ne_true] at leaves
      have reacts := (turn.dispatcher.path_react turn.entry.phase turn.entry.txn).1
      refine .cons leaves ?_
      rw [reached] at reacts ⊢
      exact reacts

open Agenda in
theorem path_advanceTo (time : Time) (budget : Nat) (dispatcher : Dispatcher σ) :
    Path dispatcher.agenda (dispatcher.chronicle (.advanceTo time budget))
      (dispatcher.advanceTo time budget).dispatcher.agenda := by
  simp only [chronicle]
  induction advance time budget dispatcher with
  | @dry budget dispatcher dry =>
      rw [turns_of_turn?_eq_none dry, advanceTo_of_turn?_eq_none dry]
      exact .single (.reached _ _ (Option.map_eq_none_iff.mp dry))
  | spent due =>
      rw [advanceTo_zero_of_turn? due]
      exact .nil
  | failed due fails =>
      rw [turns_succ_of_error due fails, advanceTo_succ_of_error due fails]
      simp only [List.flatMap_cons, List.flatMap_nil, List.append_nil]
      exact path_turn due
  | @turned budget dispatcher turn reacted due done later ih =>
      rw [turns_succ_of_ok due done, advanceTo_succ_of_ok due done, List.flatMap_cons,
        List.append_assoc]
      refine (path_turn due).append ?_
      revert ih
      cases (turn.outcome.dispatcher.advanceTo time budget).answer <;> exact id

theorem agenda_bindRecord (dispatcher : Dispatcher σ) (record : Transaction) (isSnoop : Bool) :
    (dispatcher.bindRecord record isSnoop).dispatcher.agenda = dispatcher.agenda := by
  unfold bindRecord pick
  split
  · rfl
  · split <;> rfl

open Agenda in
/-- Every call takes its dispatcher along the path that its occurrences describe. -/
theorem path_perform (dispatcher : Dispatcher σ) (operation : Operation) :
    Path dispatcher.agenda (dispatcher.chronicle operation)
      (dispatcher.perform operation).agenda := by
  cases operation with
  | bind record isSnoop =>
      have same : (dispatcher.perform (.bind record isSnoop)).agenda = dispatcher.agenda := by
        cases record with
        | some record => exact dispatcher.agenda_bindRecord record isSnoop
        | none => exact agenda_bindRecord _ _ _
      rw [same]
      exact .nil
  | react event txn => exact (dispatcher.path_react event txn).1
  | schedule request => exact (path_foldl_schedule [request] dispatcher rfl).1
  | advanceTo time budget => exact path_advanceTo time budget dispatcher
  | clockEdge =>
      exact .cons (.edge dispatcher.agenda)
        (path_reactAll dispatcher.clocked.tick.1
          { dispatcher with clocked := dispatcher.clocked.tick.2 })
  | drainFinished => exact .nil

open Agenda in
theorem path_performAll (dispatcher : Dispatcher σ) (operations : List Operation) :
    Path dispatcher.agenda (dispatcher.chronicleAll operations)
      (dispatcher.performAll operations).agenda := by
  induction operations generalizing dispatcher with
  | nil => exact .nil
  | cons first rest ih => exact (dispatcher.path_perform first).append (ih _)

end Dispatcher

end Handshake
