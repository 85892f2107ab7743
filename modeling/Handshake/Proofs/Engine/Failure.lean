import Mathlib.Data.List.Basic
import Handshake.Proofs.Engine.Edges
set_option autoImplicit false

/-! Calls that fail. A call that moves time reacts to entries in turn and stops at the first
reaction that fails. On the delay queue entries leave one by one, so all behind the failing one
stay. On a clock edge everything that is due leaves at once, so what is due behind the failing
entry is in neither queue afterwards and is never reacted to. -/

namespace Handshake

def Waiting.countdown (entry : Waiting) : Waiting :=
  { entry with remaining := entry.remaining - 1 }

def clockedIn (chronicle : List Occurrence) : List Waiting :=
  chronicle.filterMap Occurrence.arrival?

private theorem clockedIn_append (before after : List Occurrence) :
    clockedIn (before ++ after) = clockedIn before ++ clockedIn after :=
  List.filterMap_append

private theorem clockedIn_singleton (occurrence : Occurrence) :
    clockedIn [occurrence] = occurrence.arrival?.toList := by
  unfold clockedIn
  cases arrival : occurrence.arrival? with
  | none => rw [List.filterMap_cons_none arrival]; rfl
  | some entry => rw [List.filterMap_cons_some arrival]; rfl

private theorem Agenda.Path.clocked_eq {start final : Agenda} {chronicle : List Occurrence}
    (path : Path start chronicle final) (none : .edge ∉ chronicle) :
    final.clocked.entries = start.clocked.entries ++ clockedIn chronicle := by
  induction path with
  | nil => exact (List.append_nil _).symm
  | @snoc before occurrence reached next earlier step ih =>
      rw [List.mem_append, not_or] at none
      rw [clockedIn_append, clockedIn_singleton, ← List.append_assoc, ← ih none.1]
      cases step with
      | scheduled request => exact (reached.schedule_clocked request).1
      | left time entry rest popped => exact (reached.release_clocked entry rest).1
      | reached time dry => exact (List.append_nil _).symm
      | edge => exact absurd List.mem_cons_self none.2

namespace Dispatcher

variable {σ : Type} [Inhabited σ] {dispatcher : Dispatcher σ} {time : Time} {budget : Nat}
  {error : EngineError} {gone : List Delayed}

/-! ### The delay queue -/

private theorem edge_not_mem_chronicle_advanceTo (dispatcher : Dispatcher σ) (time : Time)
    (budget : Nat) : .edge ∉ dispatcher.chronicle (.advanceTo time budget) :=
  List.count_eq_zero.mp (dispatcher.count_edge_chronicle (.advanceTo time budget))

private theorem turns_of_failed
    (fails : (dispatcher.advanceTo time budget).answer = .error (.failed error)) :
    ∃ done failing, dispatcher.turns time budget = done ++ [failing] ∧
      (∀ turn ∈ done, ∃ reacted, turn.outcome.answer = .ok reacted) ∧
        failing.outcome.answer = .error error := by
  induction advance time budget dispatcher with
  | dry dry =>
      rw [advanceTo_of_turn?_eq_none dry] at fails
      cases fails
  | spent due =>
      rw [advanceTo_zero_of_turn? due] at fails
      cases fails
  | @failed budget dispatcher turn cause due turnFails =>
      rw [advanceTo_succ_of_error due turnFails] at fails
      cases fails
      refine ⟨[], turn, turns_succ_of_error due turnFails, ?_, turnFails⟩
      intro other member
      cases member
  | @turned budget dispatcher turn reacted due turnDone later ih =>
      rw [advanceTo_succ_of_ok due turnDone] at fails
      have failsLater : (turn.outcome.dispatcher.advanceTo time budget).answer =
          .error (.failed error) := by
        cases answer : (turn.outcome.dispatcher.advanceTo time budget).answer with
        | ok rest => simp only [answer, Except.map, reduceCtorEq] at fails
        | error stop =>
            simp only [answer, Except.map, Except.error.injEq] at fails
            rw [fails]
      obtain ⟨done, failing, turns, succeed, last⟩ := ih failsLater
      refine ⟨turn :: done, failing, ?_, ?_, last⟩
      · rw [turns_succ_of_ok due turnDone, turns]
        rfl
      · intro other member
        rcases List.mem_cons.mp member with rfl | behind
        · exact ⟨reacted, turnDone⟩
        · exact succeed other behind

/-- What a call of `advanceTo` that fails takes from the queues and leaves there. -/
structure FailsAdvancing (dispatcher : Dispatcher σ) (time : Time) (budget : Nat)
    (error : EngineError) : Prop where
  -- entries leave in turn, up to the first whose reaction fails and with it
  stops : ∃ done failing, dispatcher.turns time budget = done ++ [failing] ∧
    (∀ turn ∈ done, ∃ reacted, turn.outcome.answer = .ok reacted) ∧
      failing.outcome.answer = .error error
  -- what was in the delay queue, or was put there on the way, left in a turn or is there
  delayed : ((dispatcher.turns time budget).map Turn.entry ++
      (dispatcher.advanceTo time budget).dispatcher.delayed.entries).Perm
    (dispatcher.delayed.entries ++ posted dispatcher.delayed.pushed
      (dispatcher.chronicle (.advanceTo time budget)))
  -- what left stood before all that is there
  ordered : ∀ turn ∈ dispatcher.turns time budget,
    ∀ entry ∈ (dispatcher.advanceTo time budget).dispatcher.delayed.entries,
      turn.entry.Precedes entry
  -- nothing left the cycle queue
  clocked : (dispatcher.advanceTo time budget).dispatcher.clocked.entries =
    dispatcher.clocked.entries ++ clockedIn (dispatcher.chronicle (.advanceTo time budget))
  -- what is in the delay queue is delivered by the next call if that gets to it
  resumes : ∀ entry ∈ (dispatcher.advanceTo time budget).dispatcher.delayed.entries,
    ∀ operation,
      .left entry ∈ (dispatcher.advanceTo time budget).dispatcher.chronicle operation ↔
        (dispatcher.advanceTo time budget).dispatcher.GetsTo operation entry

private theorem failsAdvancing (punctual : dispatcher.agenda.Punctual gone)
    (fails : (dispatcher.advanceTo time budget).answer = .error (.failed error)) :
    FailsAdvancing dispatcher time budget error := by
  have call := path_advanceTo time budget dispatcher
  have after := punctual.path call
  refine ⟨turns_of_failed fails, ?_, ?_, ?_, ?_⟩
  · rw [← departed_chronicle_advanceTo]
    exact call.conserves.1
  · intro turn taken entry queued
    refine (List.pairwise_append.mp after.ordered).2.2 turn.entry ?_ entry queued
    rw [departed_chronicle_advanceTo]
    exact List.mem_append_right _ (List.mem_map_of_mem taken)
  · exact call.clocked_eq (edge_not_mem_chronicle_advanceTo dispatcher time budget)
  · intro entry queued operation
    exact left_iff_getsTo after (List.mem_append_left _ queued)

/-! ### The cycle queue -/

private theorem calls_of_failed {entries : List Waiting}
    (fails : (dispatcher.reactAll entries).answer = .error error) :
    ∃ done failing lost, dispatcher.calls entries = done ++ [failing] ∧
      (∀ call ∈ done, call.outcome.answer = .ok ()) ∧ failing.outcome.answer = .error error ∧
        entries = (dispatcher.calls entries).map Call.entry ++ lost := by
  induction entries generalizing dispatcher with
  | nil => cases fails
  | cons entry rest ih =>
      unfold reactAll at fails
      unfold calls
      cases answer : (dispatcher.react entry.phase entry.txn).answer with
      | error cause =>
          -- the entries behind the failing one are lost
          simp only [answer, Except.error.injEq] at fails
          subst fails
          refine ⟨[], ⟨entry, dispatcher⟩, rest, rfl, ?_, answer, rfl⟩
          intro call member
          cases member
      | ok done =>
          simp only [answer] at fails
          obtain ⟨done, failing, lost, calls, succeed, last, passed⟩ := ih fails
          refine ⟨⟨entry, dispatcher⟩ :: done, failing, lost, ?_, ?_, last, ?_⟩
          · simp only [calls, List.cons_append]
          · intro call member
            rcases List.mem_cons.mp member with rfl | behind
            · exact answer
            · exact succeed call behind
          · simp only [List.map_cons, List.cons_append]
            rw [← passed]

/-- What a clock edge that fails takes from the queues and leaves there, but for the entries
that it loses. -/
structure FailsOnEdge (dispatcher : Dispatcher σ) (error : EngineError) (lost : List Waiting) :
    Prop where
  -- entries are reacted to in turn, up to the first whose reaction fails and with it
  stops : ∃ done failing, dispatcher.edgeCalls = done ++ [failing] ∧
    (∀ call ∈ done, call.outcome.answer = .ok ()) ∧ failing.outcome.answer = .error error
  -- what is due behind the failing entry is lost
  due : dispatcher.clocked.entries.filter (fun entry => entry.remaining = 0) =
    dispatcher.edgeCalls.map Call.entry ++ lost
  -- what is not due has one edge less to wait, and stands before what was put off on the way
  clocked : dispatcher.clockEdge.dispatcher.clocked.entries =
    (dispatcher.clocked.entries.filter (fun entry => entry.remaining ≠ 0)).map
        Waiting.countdown ++ clockedIn (dispatcher.chronicle .clockEdge)
  -- nothing left the delay queue
  delayed : dispatcher.clockEdge.dispatcher.delayed.entries.Perm
    (dispatcher.delayed.entries ++ posted dispatcher.delayed.pushed
      (dispatcher.chronicle .clockEdge))
  -- the next edge, if it succeeds, reacts to all that is due on it
  resumes : ∀ reacted, dispatcher.clockEdge.dispatcher.clockEdge.answer = .ok reacted →
    dispatcher.clockEdge.dispatcher.edgeCalls.map Call.entry =
      dispatcher.clockEdge.dispatcher.clocked.entries.filter (fun entry => entry.remaining = 0)

private theorem failsOnEdge (fails : dispatcher.clockEdge.answer = .error error) :
    ∃ lost, FailsOnEdge dispatcher error lost := by
  have call := dispatcher.path_perform .clockEdge
  have reactions := path_reactAll dispatcher.clocked.tick.1
    { dispatcher with clocked := dispatcher.clocked.tick.2 }
  have answer := dispatcher.answer_reactAll_tick
  rw [fails] at answer
  obtain ⟨done, failing, lost, calls, succeed, last, due⟩ := calls_of_failed answer
  refine ⟨lost, ⟨done, failing, calls, succeed, last⟩, ?_, ?_, ?_, ?_⟩
  · rw [← dispatcher.clocked.tick_entries.1]
    exact due
  · have kept := reactions.clocked_eq (edge_not_mem_scheduledIn _ _)
    have ticked : dispatcher.clocked.tick.2.entries =
        (dispatcher.clocked.entries.filter (fun entry => entry.remaining ≠ 0)).map
          Waiting.countdown := dispatcher.clocked.tick_entries.2
    rw [← ticked]
    exact kept
  · have stays : departed (dispatcher.chronicle .clockEdge) = [] := departed_scheduledIn _ _
    have kept := call.conserves.1
    rw [stays, List.nil_append] at kept
    exact kept
  · intro reacted succeeds
    have answer := dispatcher.clockEdge.dispatcher.answer_reactAll_tick
    rw [succeeds] at answer
    rw [← dispatcher.clockEdge.dispatcher.clocked.tick_entries.1]
    exact map_entry_calls answer

/-! ### Every call that fails -/

/-- After every run of calls, failed ones among them: a call of `advanceTo` that fails takes the
entries of the delay queue up to and with the failing one, and all others are still queued; a
clock edge that fails takes everything that is due on it, loses what is due behind the failing
entry, and leaves everything else queued. -/
theorem performAll_new_fails (config : EngineConfig) (wiring : HandleId → CallbackTable σ)
    (operations : List Operation) :
    (∀ time budget error,
        (((new config wiring).performAll operations).advanceTo time budget).answer =
          .error (.failed error) →
        FailsAdvancing ((new config wiring).performAll operations) time budget error) ∧
      ∀ error, ((new config wiring).performAll operations).clockEdge.answer = .error error →
        ∃ lost, FailsOnEdge ((new config wiring).performAll operations) error lost := by
  have punctual := (punctual_new config wiring).path
    ((new config wiring).path_performAll operations)
  exact ⟨fun time budget error fails => failsAdvancing punctual fails,
    fun error fails => failsOnEdge fails⟩

def refusal : List Operation :=
  [.bind (some (.plain ⟨0⟩ .read)) false, .bind (some (.plain ⟨1⟩ .read)) false,
    .schedule ⟨.endRequest, ⟨0⟩, .cycles 0⟩, .schedule ⟨.beginRequest, ⟨1⟩, .cycles 0⟩,
    .schedule ⟨.endRequest, ⟨0⟩, .after 2⟩, .schedule ⟨.beginRequest, ⟨1⟩, .after 2⟩]

theorem fails_of_refusal :
    let dispatcher := (new {} (fun _ => .empty) : Dispatcher Unit).performAll refusal
    let error := EngineError.noTransition ⟨0⟩ .idle .endRequest
    (dispatcher.advanceTo 5 2).answer = .error (.failed error) ∧
      dispatcher.clockEdge.answer = .error error ∧
        FailsAdvancing dispatcher 5 2 error ∧
          (dispatcher.advanceTo 5 2).dispatcher.delayed.entries =
              [⟨⟨.beginRequest, ⟨1⟩, false⟩, 2, 2⟩] ∧
            FailsOnEdge dispatcher error [⟨.beginRequest, ⟨1⟩, 0⟩] := by
  intro dispatcher error
  obtain ⟨advancing, edge⟩ :=
    performAll_new_fails {} (fun _ => (.empty : CallbackTable Unit)) refusal
  obtain ⟨lost, fails⟩ := edge error rfl
  have due : [⟨.endRequest, ⟨0⟩, 0⟩, ⟨.beginRequest, ⟨1⟩, 0⟩] =
      [⟨.endRequest, ⟨0⟩, 0⟩] ++ lost := fails.due
  obtain rfl : _ = lost := (List.cons.inj due).2
  exact ⟨rfl, rfl, advancing 5 2 error rfl, rfl, fails⟩

/-- The phase that is due on an edge behind a refused one is in neither queue afterwards, and the
next edge does not react to it. -/
theorem lost_of_refusal :
    let dispatcher := (new {} (fun _ => .empty) : Dispatcher Unit).performAll (refusal.take 4)
    let after := dispatcher.clockEdge.dispatcher
    dispatcher.clocked.entries = [⟨.endRequest, ⟨0⟩, 0⟩, ⟨.beginRequest, ⟨1⟩, 0⟩] ∧
      dispatcher.clockEdge.answer = .error (.noTransition ⟨0⟩ .idle .endRequest) ∧
        dispatcher.edgeCalls.map Call.entry = [⟨.endRequest, ⟨0⟩, 0⟩] ∧
          after.clocked.entries = [] ∧ after.delayed.entries = [] ∧
            after.clockEdge.answer = .ok 0 ∧
              after.clockEdge.dispatcher.state? ⟨1⟩ = some .idle :=
  ⟨rfl, rfl, rfl, rfl, rfl, rfl, rfl⟩

end Dispatcher

end Handshake
