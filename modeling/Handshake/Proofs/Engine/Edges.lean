import Mathlib.Data.List.Basic
import Handshake.Proofs.Engine.Delivery
set_option autoImplicit false

/-! Delivery of the cycle queue. What comes to the queue is reacted to on the clock edge before
which as many edges have passed as it waits for, and what is due on one edge in the order of
coming. A phase that waits for a delay first comes when a call of `advanceTo` gets to it, and
then waits for no edge. -/

namespace Handshake

/-- What an occurrence brings to the cycle queue, with the number of edges that it waits for: a
phase that is put off by clock edges, or one whose delay is over. -/
def Occurrence.arrival? : Occurrence → Option Waiting
  | .scheduled _ ⟨phase, txn, .cycles count⟩ => some ⟨phase, txn, count⟩
  | .left entry => if entry.sync then some ⟨entry.phase, entry.txn, 0⟩ else none
  | _ => none

/-- An entry that came to the cycle queue, and how many edges there were since. -/
structure Arrival where
  entry : Waiting
  passed : Nat

namespace Arrival

def after (edges : Nat) (arrival : Arrival) : Arrival :=
  { arrival with passed := arrival.passed + edges }

def waiting (arrival : Arrival) : Waiting :=
  { arrival.entry with remaining := arrival.entry.remaining - arrival.passed }

end Arrival

def arrivals : List Occurrence → List Arrival
  | [] => []
  | first :: rest =>
      (first.arrival?.map (fun entry => ⟨entry, rest.count .edge⟩)).toList ++ arrivals rest

/-- What is due on a clock edge at the end of a chronicle: that which as many edges have passed
for as it waits for. -/
def dueAfter (chronicle : List Occurrence) : List Waiting :=
  ((arrivals chronicle).filter (fun arrival => arrival.passed = arrival.entry.remaining)).map
    Arrival.entry

def stillWaiting (arrivals : List Arrival) : List Waiting :=
  (arrivals.filter (fun arrival => arrival.passed ≤ arrival.entry.remaining)).map Arrival.waiting

def Waiting.subject (entry : Waiting) : Phase × TxnId := (entry.phase, entry.txn)

private theorem arrivals_append (before after : List Occurrence) :
    arrivals (before ++ after) =
      (arrivals before).map (Arrival.after (after.count .edge)) ++ arrivals after := by
  induction before with
  | nil => rfl
  | cons first rest ih =>
      rw [List.cons_append, arrivals, arrivals, ih, List.map_append, List.append_assoc,
        List.count_append]
      cases first.arrival? <;> rfl

private theorem stillWaiting_append (before after : List Arrival) :
    stillWaiting (before ++ after) = stillWaiting before ++ stillWaiting after := by
  simp only [stillWaiting, List.filter_append, List.map_append]

private theorem map_after_zero (arrivals : List Arrival) :
    arrivals.map (Arrival.after 0) = arrivals := by
  induction arrivals with
  | nil => rfl
  | cons first rest ih => rw [List.map_cons, ih]; rfl

/-! ### One edge -/

namespace CycleQueue

theorem tick_entries (queue : CycleQueue) :
    queue.tick.1 = queue.entries.filter (fun entry => entry.remaining = 0) ∧
      queue.tick.2.entries = (queue.entries.filter (fun entry => entry.remaining ≠ 0)).map
        (fun entry => { entry with remaining := entry.remaining - 1 }) := by
  obtain ⟨entries, edges⟩ := queue
  cases entries <;> exact ⟨rfl, rfl⟩

private theorem tick_edges (queue : CycleQueue) :
    queue.tick.2.edges = queue.edges + if !queue.isSuspended then 1 else 0 := by
  unfold tick
  cases queue.isSuspended <;> rfl

end CycleQueue

private theorem subject_filter_stillWaiting (arrivals : List Arrival) :
    ((stillWaiting arrivals).filter (fun entry => entry.remaining = 0)).map Waiting.subject =
      ((arrivals.filter (fun arrival => arrival.passed = arrival.entry.remaining)).map
        Arrival.entry).map Waiting.subject := by
  induction arrivals with
  | nil => rfl
  | cons first rest ih =>
      rw [← List.singleton_append, stillWaiting_append, List.filter_append, List.map_append, ih,
        List.filter_append, List.map_append, List.map_append]
      congr 1
      rcases Nat.lt_trichotomy first.passed first.entry.remaining with early | now | late
      · have waits : first.entry.remaining - first.passed ≠ 0 := by omega
        simp [stillWaiting, Arrival.waiting, Nat.le_of_lt early, waits, Nat.ne_of_lt early]
      · simp [stillWaiting, Arrival.waiting, now, Waiting.subject]
      · simp [stillWaiting, Nat.not_le_of_lt late, Nat.ne_of_gt late]

private theorem stillWaiting_after_edge (arrivals : List Arrival) :
    ((stillWaiting arrivals).filter (fun entry => entry.remaining ≠ 0)).map
        (fun entry => { entry with remaining := entry.remaining - 1 }) =
      stillWaiting (arrivals.map (Arrival.after 1)) := by
  induction arrivals with
  | nil => rfl
  | cons first rest ih =>
      rw [← List.singleton_append, stillWaiting_append, List.filter_append, List.map_append, ih,
        List.map_append, stillWaiting_append]
      congr 1
      rcases Nat.lt_trichotomy first.passed first.entry.remaining with early | now | late
      · have waits : first.entry.remaining - first.passed ≠ 0 := by omega
        simp [stillWaiting, Arrival.waiting, Arrival.after, Nat.le_of_lt early, waits,
          Nat.succ_le_of_lt early, Nat.sub_sub]
      · simp [stillWaiting, Arrival.waiting, Arrival.after, now]
      · simp [stillWaiting, Arrival.after, Nat.not_le_of_lt late,
          Nat.not_le_of_lt (Nat.lt_succ_of_lt late)]

namespace Agenda

variable {start final : Agenda} {chronicle : List Occurrence}

theorem schedule_clocked (agenda : Agenda) (request : Request) :
    (agenda.schedule request).clocked.entries = agenda.clocked.entries ++
        (Occurrence.arrival? (.scheduled agenda.now request)).toList ∧
      (agenda.schedule request).clocked.edges = agenda.clocked.edges := by
  obtain ⟨phase, txn, moment⟩ := request
  cases moment with
  | after delay => exact ⟨(List.append_nil _).symm, rfl⟩
  | afterSync delay => exact ⟨(List.append_nil _).symm, rfl⟩
  | cycles count => exact ⟨rfl, rfl⟩

theorem release_clocked (agenda : Agenda) (entry : Delayed) (rest : DelayQueue) :
    (agenda.release entry rest).clocked.entries = agenda.clocked.entries ++
        (Occurrence.arrival? (.left entry)).toList ∧
      (agenda.release entry rest).clocked.edges = agenda.clocked.edges := by
  simp only [release, Occurrence.arrival?]
  split
  · exact ⟨rfl, rfl⟩
  · exact ⟨(List.append_nil _).symm, rfl⟩

private theorem stillWaiting_arrivals_singleton {occurrence : Occurrence} :
    stillWaiting (arrivals [occurrence]) = occurrence.arrival?.toList := by
  unfold arrivals
  cases occurrence.arrival? with
  | none => rfl
  | some entry =>
      simp [stillWaiting, arrivals, Arrival.waiting]

/-- The cycle queue holds exactly what came to it and was not due on an edge yet, in the order
of coming. -/
theorem Path.waits (path : Path start chronicle final) (fresh : start.clocked.entries = []) :
    final.clocked.entries = stillWaiting (arrivals chronicle) := by
  induction path with
  | nil => exact fresh
  | @snoc before occurrence reached next earlier step ih =>
      rw [arrivals_append, stillWaiting_append, stillWaiting_arrivals_singleton]
      cases step with
      | scheduled request =>
          rw [(reached.schedule_clocked request).1, ih]
          simp [map_after_zero]
      | left time entry rest popped =>
          rw [(reached.release_clocked entry rest).1, ih]
          simp [map_after_zero]
      | reached time dry =>
          simp [map_after_zero, ih, Occurrence.arrival?]
      | edge =>
          simp only [List.count_cons, List.count_nil]
          rw [reached.clocked.tick_entries.2, ih, stillWaiting_after_edge]
          simp [Occurrence.arrival?]

private theorem Path.edges_eq (path : Path start chronicle final) (none : .edge ∉ chronicle) :
    final.clocked.edges = start.clocked.edges := by
  induction path with
  | nil => rfl
  | @snoc before occurrence reached next earlier step ih =>
      rw [List.mem_append, not_or] at none
      rw [← ih none.1]
      cases step with
      | scheduled request => exact (reached.schedule_clocked request).2
      | left time entry rest popped => exact (reached.release_clocked entry rest).2
      | reached time dry => rfl
      | edge => exact absurd List.mem_cons_self none.2

end Agenda

/-! ### The reactions on an edge -/

structure Call (σ : Type) where
  entry : Waiting
  dispatcher : Dispatcher σ

def Call.outcome {σ : Type} [Inhabited σ] (call : Call σ) :
    Outcome σ (Except EngineError Unit) :=
  call.dispatcher.react call.entry.phase call.entry.txn

namespace Dispatcher

variable {σ : Type} [Inhabited σ]

/-- The reactions to some entries in turn, up to the first that fails and with it. -/
def calls : List Waiting → Dispatcher σ → List (Call σ)
  | [], _ => []
  | entry :: rest, dispatcher =>
      ⟨entry, dispatcher⟩ ::
        match (dispatcher.react entry.phase entry.txn).answer with
        | .error _ => []
        | .ok () => calls rest (dispatcher.react entry.phase entry.txn).dispatcher

def edgeCalls (dispatcher : Dispatcher σ) : List (Call σ) :=
  { dispatcher with clocked := dispatcher.clocked.tick.2 }.calls dispatcher.clocked.tick.1

private theorem journal_reactAll (entries : List Waiting) (dispatcher : Dispatcher σ) :
    (dispatcher.reactAll entries).journal =
      (dispatcher.calls entries).flatMap (fun call => call.outcome.journal) := by
  induction entries generalizing dispatcher with
  | nil => rfl
  | cons entry rest ih =>
      unfold reactAll calls
      simp only [List.flatMap_cons]
      cases (dispatcher.react entry.phase entry.txn).answer with
      | error error => exact (List.append_nil _).symm
      | ok done => exact congrArg _ (ih _)

theorem map_entry_calls {entries : List Waiting} {dispatcher : Dispatcher σ}
    (succeeds : (dispatcher.reactAll entries).answer = .ok ()) :
    (dispatcher.calls entries).map Call.entry = entries := by
  induction entries generalizing dispatcher with
  | nil => rfl
  | cons entry rest ih =>
      unfold reactAll at succeeds
      unfold calls
      cases answer : (dispatcher.react entry.phase entry.txn).answer with
      | error error => simp only [answer, reduceCtorEq] at succeeds
      | ok done =>
          simp only [answer] at succeeds
          exact congrArg (entry :: ·) (ih succeeds)

theorem answer_reactAll_tick (dispatcher : Dispatcher σ) :
    (reactAll dispatcher.clocked.tick.1
        { dispatcher with clocked := dispatcher.clocked.tick.2 }).answer =
      dispatcher.clockEdge.answer.map (fun _ => ()) := by
  simp only [clockEdge]
  generalize (reactAll dispatcher.clocked.tick.1
    { dispatcher with clocked := dispatcher.clocked.tick.2 }).answer = answer
  cases answer <;> rfl

/-- How an edge delivers the cycle queue, after a run that a chronicle tells of. -/
structure DeliversEdge (chronicle : List Occurrence) (dispatcher : Dispatcher σ) : Prop where
  -- what the edge does it does in its reactions
  journal : dispatcher.clockEdge.journal =
    dispatcher.edgeCalls.flatMap (fun call => call.outcome.journal)
  -- exactly what is due is reacted to, in the order of coming
  exact : dispatcher.edgeCalls.map (fun call => call.entry.subject) =
    (dueAfter chronicle).map Waiting.subject
  answer : dispatcher.clockEdge.answer = .ok (dueAfter chronicle).length

private theorem deliversEdge {start : Agenda} {chronicle : List Occurrence}
    {dispatcher : Dispatcher σ}
    (path : Agenda.Path start chronicle dispatcher.agenda) (fresh : start.clocked.entries = [])
    (succeeds : ∃ reacted, dispatcher.clockEdge.answer = .ok reacted) :
    DeliversEdge chronicle dispatcher := by
  have due : dispatcher.clocked.tick.1.map Waiting.subject =
      (dueAfter chronicle).map Waiting.subject := by
    have entries : dispatcher.clocked.entries = stillWaiting (arrivals chronicle) :=
      path.waits fresh
    rw [dispatcher.clocked.tick_entries.1, entries, subject_filter_stillWaiting, dueAfter]
  have length : dispatcher.clocked.tick.1.length = (dueAfter chronicle).length := by
    have lengths := congrArg List.length due
    rwa [List.length_map, List.length_map] at lengths
  obtain ⟨reacted, done⟩ := succeeds
  have reactions := dispatcher.answer_reactAll_tick
  rw [done] at reactions
  refine ⟨journal_reactAll _ _, ?_, ?_⟩
  · have entries : dispatcher.edgeCalls.map Call.entry = dispatcher.clocked.tick.1 :=
      map_entry_calls reactions
    rw [← due, ← entries, List.map_map]
    rfl
  · simp only [clockEdge, reactions, Except.map, length]

/-! ### Edges that count -/

/-- A call counts as an edge if it is one and the cycle queue has use for it. -/
def edgesUsed (dispatcher : Dispatcher σ) : Operation → Nat
  | .clockEdge => if dispatcher.wantsClock then 1 else 0
  | .bind _ _ | .react _ _ | .schedule _ | .advanceTo _ _ | .drainFinished => 0

def edgesOf (dispatcher : Dispatcher σ) : List Operation → Nat
  | [] => 0
  | first :: rest => dispatcher.edgesUsed first + (dispatcher.perform first).edgesOf rest

omit [Inhabited σ] in
theorem edge_not_mem_scheduledIn (time : Time) (journal : List (Activity σ)) :
    .edge ∉ scheduledIn time journal := by
  simp [scheduledIn]

private theorem edge_not_mem_chronicle_turn (turn : Turn σ) : .edge ∉ turn.chronicle := by
  simp [Turn.chronicle, edge_not_mem_scheduledIn]

theorem count_edge_chronicle (dispatcher : Dispatcher σ) (operation : Operation) :
    (dispatcher.chronicle operation).count .edge =
      match operation with
      | .clockEdge => 1
      | _ => 0 := by
  cases operation with
  | bind record isSnoop => rfl
  | react event txn => exact List.count_eq_zero.mpr (edge_not_mem_scheduledIn _ _)
  | schedule request => rfl
  | advanceTo time budget =>
      refine List.count_eq_zero.mpr ?_
      simp only [chronicle, List.mem_append, List.mem_flatMap, not_or, not_exists, not_and]
      refine ⟨fun turn _ => edge_not_mem_chronicle_turn turn, ?_⟩
      cases (dispatcher.advanceTo time budget).answer <;> simp
  | clockEdge =>
      simp only [chronicle, List.count_cons_self]
      rw [List.count_eq_zero.mpr (edge_not_mem_scheduledIn _ _)]
  | drainFinished => rfl

theorem edges_perform (dispatcher : Dispatcher σ) (operation : Operation) :
    (dispatcher.perform operation).clocked.edges =
      dispatcher.clocked.edges + dispatcher.edgesUsed operation := by
  have quiet : dispatcher.edgesUsed operation = 0 →
      (dispatcher.chronicle operation).count .edge = 0 →
        (dispatcher.perform operation).clocked.edges =
          dispatcher.clocked.edges + dispatcher.edgesUsed operation := by
    intro unused none
    rw [unused, Nat.add_zero]
    exact (dispatcher.path_perform operation).edges_eq (List.count_eq_zero.mp none)
  cases operation with
  | clockEdge =>
      have later := path_reactAll dispatcher.clocked.tick.1
        { dispatcher with clocked := dispatcher.clocked.tick.2 }
      have counted := dispatcher.clocked.tick_edges
      exact (later.edges_eq (edge_not_mem_scheduledIn _ _)).trans counted
  | bind _ _ | react _ _ | schedule _ | advanceTo _ _ | drainFinished =>
      exact quiet rfl (count_edge_chronicle _ _)

private theorem edges_performAll (dispatcher : Dispatcher σ) (operations : List Operation) :
    (dispatcher.performAll operations).clocked.edges =
      dispatcher.clocked.edges + dispatcher.edgesOf operations := by
  induction operations generalizing dispatcher with
  | nil => rfl
  | cons first rest ih =>
      have later := ih (dispatcher.perform first)
      rw [edges_perform, Nat.add_assoc] at later
      exact later

/-! ### The call that gets to an entry -/

/-- A call of `advanceTo` stops short of an entry if it fails, or runs out of its budget, with
nothing but earlier entries delivered. -/
def StopsBefore (dispatcher : Dispatcher σ) (time : Time) (budget : Nat) (entry : Delayed) :
    Prop :=
  (∃ stop, (dispatcher.advanceTo time budget).answer = .error stop) ∧
    ∀ turn ∈ dispatcher.turns time budget, turn.entry.Precedes entry

/-- A call gets to an entry of the delay queue if it moves time as far as the entry's due time
and does not stop short of it. -/
def GetsTo (dispatcher : Dispatcher σ) (operation : Operation) (entry : Delayed) : Prop :=
  ∃ time budget, operation = .advanceTo time budget ∧ entry.due ≤ time ∧
    ¬ dispatcher.StopsBefore time budget entry

def stage (dispatcher : Dispatcher σ) (operations : List Operation) (number : Nat) :
    Dispatcher σ :=
  dispatcher.performAll (operations.take number)

variable {dispatcher : Dispatcher σ} {operation : Operation} {entry : Delayed}
  {gone : List Delayed}

private theorem getsTo_of_left (left : .left entry ∈ dispatcher.chronicle operation) :
    dispatcher.GetsTo operation entry := by
  rw [← mem_departed_iff] at left
  cases operation with
  | advanceTo time budget =>
      rw [departed_chronicle_advanceTo] at left
      obtain ⟨turn, taken, rfl⟩ := List.mem_map.mp left
      exact ⟨time, budget, rfl, due_le_of_mem_turns taken,
        fun stops => (stops.2 turn taken).ne rfl⟩
  | react event txn =>
      rw [chronicle, departed_scheduledIn] at left
      cases left
  | clockEdge =>
      have none : departed (dispatcher.chronicle .clockEdge) = [] := departed_scheduledIn _ _
      rw [none] at left
      cases left
  | bind _ _ | schedule _ | drainFinished => cases left

theorem left_iff_getsTo (punctual : dispatcher.agenda.Punctual gone)
    (present : entry ∈ dispatcher.delayed.entries ++
      posted dispatcher.delayed.pushed (dispatcher.chronicle operation)) :
    .left entry ∈ dispatcher.chronicle operation ↔ dispatcher.GetsTo operation entry := by
  refine ⟨getsTo_of_left, ?_⟩
  rintro ⟨time, budget, rfl, due, goesOn⟩
  have call := path_advanceTo time budget dispatcher
  have after := punctual.path call
  rw [← mem_departed_iff]
  refine (List.mem_append.mp (call.conserves.1.symm.subset present)).resolve_right ?_
  intro queued
  cases answer : (dispatcher.advanceTo time budget).answer with
  | ok reacted =>
      have later := after.lt_due (advanceTo_of_ok answer).1 entry queued
      exact Nat.not_le_of_lt later due
  | error stop =>
      refine goesOn ⟨⟨stop, answer⟩, fun turn taken => ?_⟩
      refine (List.pairwise_append.mp after.ordered).2.2 turn.entry ?_ entry queued
      rw [departed_chronicle_advanceTo]
      exact List.mem_append_right _ (List.mem_map_of_mem taken)

private theorem not_left_of_gone (punctual : dispatcher.agenda.Punctual gone)
    (left : entry ∈ gone) :
    .left entry ∉ dispatcher.chronicle operation := by
  intro again
  have after := punctual.path (dispatcher.path_perform operation)
  have apart := (List.pairwise_append.mp (List.pairwise_append.mp after.ordered).1).2.2
  exact (apart entry left entry (mem_departed_iff.mpr again)).ne rfl

private theorem left_iff_first_getsTo (operations : List Operation) (number : Nat)
    (present : ∀ first, operations[0]? = some first →
      entry ∈ dispatcher.delayed.entries ++
        posted dispatcher.delayed.pushed (dispatcher.chronicle first))
    (punctual : dispatcher.agenda.Punctual gone)
    (there : operations[number]? = some operation) :
    .left entry ∈ (dispatcher.stage operations number).chronicle operation ↔
      (dispatcher.stage operations number).GetsTo operation entry ∧
        ∀ earlier between, earlier < number → operations[earlier]? = some between →
          ¬ (dispatcher.stage operations earlier).GetsTo between entry := by
  induction operations generalizing dispatcher gone number with
  | nil => cases there
  | cons first rest ih =>
      have inFirst := left_iff_getsTo punctual (present first rfl)
      cases number with
      | zero =>
          cases there
          refine inFirst.trans (iff_self_and.mpr ?_)
          intro _ earlier between before
          exact absurd before (Nat.not_lt_zero _)
      | succ number =>
          have call := dispatcher.path_perform first
          have after := punctual.path call
          by_cases left : .left entry ∈ dispatcher.chronicle first
          · -- it is gone for good, and the first call got to it
            refine iff_of_false ?_ (fun firstly => firstly.2 0 first (Nat.succ_pos _) rfl
              (inFirst.mp left))
            have later := after.path
              ((dispatcher.perform first).path_performAll (rest.take number))
            refine not_left_of_gone later (List.mem_append_left _ (List.mem_append_right _ ?_))
            exact mem_departed_iff.mpr left
          · have queued : entry ∈ (dispatcher.perform first).delayed.entries := by
              have kept := call.conserves.1.symm.subset (present first rfl)
              exact (List.mem_append.mp kept).resolve_left
                (fun departs => left (mem_departed_iff.mp departs))
            refine (@ih (dispatcher.perform first) _ number
              (fun _ _ => List.mem_append_left _ queued) after there).trans
              (and_congr_right fun _ => ⟨?_, ?_⟩)
            · intro none earlier between before there
              cases earlier with
              | zero =>
                  cases there
                  exact fun gets => left (inFirst.mpr gets)
              | succ earlier => exact none earlier between (Nat.lt_of_succ_lt_succ before) there
            · intro none earlier between before there
              exact none (earlier + 1) between (Nat.succ_lt_succ before) there

private theorem stage_add (dispatcher : Dispatcher σ) (operations : List Operation)
    (first later : Nat) :
    (dispatcher.stage operations first).stage (operations.drop first) later =
      dispatcher.stage operations (first + later) := by
  rw [stage, stage, stage, List.take_add, performAll, performAll, performAll, List.foldl_append]

/-- In every run whose clock edges succeed, failures of other calls among them, each edge reacts
to exactly those phases that as many edges have passed for as they wait for, in the order in
which they came to the cycle queue; an entry of the delay queue leaves it, for the cycle queue if
it waits for an edge, during the first call that gets to it; and the edges consumed are those
that came while the cycle queue held entries. -/
theorem performAll_new_deliversEdges (config : EngineConfig)
    (wiring : HandleId → CallbackTable σ) (operations : List Operation)
    (succeed : ∀ number, operations[number]? = some .clockEdge →
      ∃ reacted, ((new config wiring).stage operations number).clockEdge.answer = .ok reacted) :
    (∀ number, operations[number]? = some .clockEdge →
        DeliversEdge ((new config wiring).chronicleAll (operations.take number))
          ((new config wiring).stage operations number)) ∧
      (∀ first later scheduling leaving entry,
        operations[first]? = some scheduling → operations[first + later]? = some leaving →
          entry ∈ posted ((new config wiring).stage operations first).delayed.pushed
              (((new config wiring).stage operations first).chronicle scheduling) →
            (.left entry ∈
                ((new config wiring).stage operations (first + later)).chronicle leaving ↔
              ((new config wiring).stage operations (first + later)).GetsTo leaving entry ∧
                ∀ earlier between, earlier < later →
                  operations[first + earlier]? = some between →
                    ¬ ((new config wiring).stage operations (first + earlier)).GetsTo
                      between entry)) ∧
        ((new config wiring).performAll operations).clocked.edges =
          (new config wiring).edgesOf operations := by
  refine ⟨?_, ?_, ?_⟩
  · intro number edge
    exact deliversEdge ((new config wiring).path_performAll (operations.take number)) rfl
      (succeed number edge)
  · intro first later scheduling leaving entry atFirst atLater scheduled
    have punctual := (punctual_new config wiring).path
      ((new config wiring).path_performAll (operations.take first))
    have dropped : (operations.drop first)[later]? = some leaving := by
      rw [List.getElem?_drop]
      exact atLater
    have present : ∀ operation, (operations.drop first)[0]? = some operation →
        entry ∈ ((new config wiring).stage operations first).delayed.entries ++
          posted ((new config wiring).stage operations first).delayed.pushed
            (((new config wiring).stage operations first).chronicle operation) := by
      intro operation head
      rw [List.getElem?_drop, Nat.add_zero, atFirst] at head
      cases head
      exact List.mem_append_right _ scheduled
    have once := left_iff_first_getsTo (operations.drop first) later present punctual dropped
    simp only [stage_add, List.getElem?_drop] at once
    exact once
  · rw [edges_performAll]
    exact Nat.zero_add _

/-- A phase that waits for one edge to pass meets, on the second edge, one whose delay ended
between the two; what the first of them asks for comes on the third. -/
def meeting : List Operation :=
  [.bind (some (.plain ⟨0⟩ .read)) false, .schedule ⟨.beginRequest, ⟨0⟩, .cycles 1⟩,
    .schedule ⟨.endRequest, ⟨0⟩, .afterSync 3⟩, .clockEdge, .advanceTo 5 1, .clockEdge, .clockEdge]

def answering : CallbackTable Unit :=
  CallbackTable.empty.set .beginRequest (fun context =>
    { context.unchanged with requests := [(.beginResponse, .cycles 0)] })

theorem deliversEdges_of_meeting :
    (∀ number, meeting[number]? = some .clockEdge →
        ∃ reacted, ((new {} (fun _ => answering)).stage meeting number).clockEdge.answer =
          .ok reacted) ∧
      ((new {} (fun _ => answering)).stage meeting 5).edgeCalls.map
          (fun call => call.entry.subject) = [(.beginRequest, ⟨0⟩), (.endRequest, ⟨0⟩)] ∧
        ((new {} (fun _ => answering)).stage meeting 6).edgeCalls.map
          (fun call => call.entry.subject) = [(.beginResponse, ⟨0⟩)] ∧
          ((new {} (fun _ => answering)).performAll meeting).clocked.edges = 3 := by
  have succeed : ∀ number, meeting[number]? = some .clockEdge →
      ∃ reacted, ((new {} (fun _ => answering)).stage meeting number).clockEdge.answer =
        .ok reacted := by
    intro number edge
    match number, edge with
    | 3, _ => exact ⟨0, rfl⟩
    | 5, _ => exact ⟨2, rfl⟩
    | 6, _ => exact ⟨1, rfl⟩
  obtain ⟨edges, -, used⟩ := performAll_new_deliversEdges {} (fun _ => answering) meeting succeed
  exact ⟨succeed, (edges 5 rfl).exact.trans rfl, (edges 6 rfl).exact.trans rfl, used.trans rfl⟩

end Dispatcher

end Handshake
