import Handshake.Engine.Time
set_option autoImplicit false

/-! What one reaction does. Scheduling touches the two queues only; moving a machine
touches its handle, its scratch value and the queues. A reaction is one of five cases:
the transaction is unbound, the event is a mere notification, the graph refuses it, or
the machine moves, to the end of its transaction or not. -/

namespace Handshake.Dispatcher

variable {σ : Type}

/-! ### Scheduling -/

theorem schedule_eq (dispatcher : Dispatcher σ) (request : Request) :
    ∃ delayed clocked, dispatcher.schedule request = { dispatcher with delayed, clocked } := by
  unfold schedule
  cases request.moment with
  | after delay => exact ⟨_, _, rfl⟩
  | afterSync delay => exact ⟨_, _, rfl⟩
  | cycles count => exact ⟨_, _, rfl⟩

theorem foldl_schedule_eq (requests : List Request) (dispatcher : Dispatcher σ) :
    ∃ delayed clocked,
      requests.foldl schedule dispatcher = { dispatcher with delayed, clocked } := by
  induction requests generalizing dispatcher with
  | nil => exact ⟨_, _, rfl⟩
  | cons first rest ih =>
      obtain ⟨delayed, clocked, scheduled⟩ := dispatcher.schedule_eq first
      rw [List.foldl_cons, scheduled]
      exact ih { dispatcher with delayed, clocked }

/-! ### Moving a machine -/

def contextOf (dispatcher : Dispatcher σ) (bound : Bound σ) (event : Phase) : Context σ :=
  { record := bound.record
    handle := bound.id
    phase := event
    beats := bound.handle.beats
    isSnoop := bound.handle.isSnoop
    start := bound.handle.start
    now := dispatcher.now
    scratch := bound.scratch }

def runOf (dispatcher : Dispatcher σ) (bound : Bound σ) (event : Phase) (fired : List Phase) :
    CallbackTable.Run σ :=
  bound.handle.callbacks.run fired (dispatcher.contextOf bound event)

def handleAfter (dispatcher : Dispatcher σ) (bound : Bound σ) (event : Phase) (next : State)
    (fired : List Phase) : Handle σ :=
  { bound.handle with
    state := next, beats := (dispatcher.runOf bound event fired).context.beats }

theorem advanceMachine_eq (dispatcher : Dispatcher σ) (txn : TxnId) (bound : Bound σ)
    (event : Phase) (next : State) (fired : List Phase) :
    ∃ delayed clocked,
      (dispatcher.advanceMachine txn bound event next fired).dispatcher =
        { dispatcher with
          handles :=
            dispatcher.handles.set bound.id (dispatcher.handleAfter bound event next fired)
          scratch :=
            dispatcher.scratch.insert txn (dispatcher.runOf bound event fired).context.scratch
          pending := []
          delayed
          clocked } :=
  foldl_schedule_eq _ _

theorem advanceMachine_of_no_requests (dispatcher : Dispatcher σ) (txn : TxnId)
    (bound : Bound σ) (event : Phase) (next : State) (fired : List Phase)
    (settled : dispatcher.pending = [])
    (nothing : (dispatcher.runOf bound event fired).requests = []) :
    dispatcher.advanceMachine txn bound event next fired =
      ⟨{ dispatcher with
          handles :=
            dispatcher.handles.set bound.id (dispatcher.handleAfter bound event next fired)
          scratch :=
            dispatcher.scratch.insert txn (dispatcher.runOf bound event fired).context.scratch },
        (dispatcher.runOf bound event fired).calls.map .called, ()⟩ := by
  have none : dispatcher.pending ++ (dispatcher.runOf bound event fired).requests = [] := by
    rw [settled, nothing, List.append_nil]
  unfold runOf contextOf at none
  simp only [advanceMachine, applyPending, none, List.foldl_nil, List.map_nil, List.append_nil]
  rw [← settled]
  rfl

theorem journal_advanceMachine (dispatcher : Dispatcher σ) (txn : TxnId) (bound : Bound σ)
    (event : Phase) (next : State) (fired : List Phase) (settled : dispatcher.pending = []) :
    (dispatcher.advanceMachine txn bound event next fired).journal =
      (dispatcher.runOf bound event fired).calls.map .called ++
        (dispatcher.runOf bound event fired).requests.map .scheduled := by
  simp only [advanceMachine, applyPending, settled, List.nil_append]
  rfl

/-! ### The cases of a reaction -/

theorem bound?_eq_some_iff [Inhabited σ] {dispatcher : Dispatcher σ} {txn : TxnId}
    {bound : Bound σ} :
    dispatcher.bound? txn = some bound ↔
      dispatcher.active.get? txn = some bound.id ∧
        dispatcher.handles[bound.id]? = some bound.handle ∧
        bound.handle.record = some bound.record ∧
        bound.scratch = (dispatcher.scratch.get? txn).getD default := by
  constructor
  · intro found
    simp only [bound?, Option.bind_eq_bind, Option.bind_eq_some_iff, Option.some.injEq] at found
    obtain ⟨id, active, handle, present, record, recorded, rfl⟩ := found
    exact ⟨active, present, recorded, rfl⟩
  · rintro ⟨active, present, recorded, scratch⟩
    simp only [bound?, active, present, recorded, ← scratch, Option.bind_eq_bind,
      Option.bind_some]

theorem bound?_ensureScratch [Inhabited σ] (dispatcher : Dispatcher σ) (txn other : TxnId) :
    (dispatcher.ensureScratch txn).bound? other = dispatcher.bound? other := by
  simp only [bound?, ensureScratch, Table.getD_insertNew]

/-- The cases of a reaction, with what each leaves, does and answers. -/
inductive Reaction [Inhabited σ] (dispatcher : Dispatcher σ) (event : Phase) (txn : TxnId) :
    Outcome σ (Except EngineError Unit) → Prop where
  | unbound (absent : dispatcher.bound? txn = none) :
      Reaction dispatcher event txn ⟨dispatcher, [], .error (.noActiveHandle txn event)⟩
  | notified (bound : Bound σ) (found : dispatcher.bound? txn = some bound)
      (early : bound.handle.trigger? dispatcher.config event = none) :
      Reaction dispatcher event txn
        ⟨(dispatcher.advanceMachine txn bound event bound.handle.state [event]).dispatcher,
          .notified txn event ::
            (dispatcher.advanceMachine txn bound event bound.handle.state [event]).journal,
          .ok ()⟩
  | refused (bound : Bound σ) (found : dispatcher.bound? txn = some bound) (trigger : Phase)
      (given : bound.handle.trigger? dispatcher.config event = some trigger)
      (stuck : bound.handle.state.step trigger = none) :
      Reaction dispatcher event txn
        ⟨dispatcher.ensureScratch txn, [.reacting txn trigger],
          .error (.noTransition txn bound.handle.state trigger)⟩
  | moved (bound : Bound σ) (found : dispatcher.bound? txn = some bound) (trigger : Phase)
      (given : bound.handle.trigger? dispatcher.config event = some trigger) (move : Move)
      (step : bound.handle.state.step trigger = some move) (busy : move.next ≠ .idle) :
      Reaction dispatcher event txn
        ⟨(dispatcher.advanceMachine txn bound trigger move.next move.fired).dispatcher,
          .reacting txn trigger :: .moved txn bound.handle.state trigger move.next ::
            (dispatcher.advanceMachine txn bound trigger move.next move.fired).journal,
          .ok ()⟩
  | finished (bound : Bound σ) (found : dispatcher.bound? txn = some bound) (trigger : Phase)
      (given : bound.handle.trigger? dispatcher.config event = some trigger) (move : Move)
      (step : bound.handle.state.step trigger = some move) (finishes : move.next = .idle) :
      Reaction dispatcher event txn
        ⟨(dispatcher.advanceMachine txn bound trigger move.next move.fired).dispatcher.retire
            txn bound.id,
          .reacting txn trigger :: .moved txn bound.handle.state trigger move.next ::
            (dispatcher.advanceMachine txn bound trigger move.next move.fired).journal ++
              [.finished txn bound.id],
          .ok ()⟩

theorem react_reaction [Inhabited σ] (dispatcher : Dispatcher σ) (event : Phase) (txn : TxnId) :
    Reaction dispatcher event txn (dispatcher.react event txn) := by
  cases found : dispatcher.bound? txn with
  | none =>
      simp only [react, found]
      exact .unbound found
  | some bound =>
      cases given : bound.handle.trigger? dispatcher.config event with
      | none =>
          simp only [react, found, given]
          exact .notified bound found given
      | some trigger =>
          cases step : bound.handle.state.step trigger with
          | none =>
              simp only [react, found, given, step]
              exact .refused bound found trigger given step
          | some move =>
              by_cases finishes : move.next = .idle
              · simp only [react, found, given, step, if_pos finishes]
                exact .finished bound found trigger given move step finishes
              · simp only [react, found, given, step, if_neg finishes]
                exact .moved bound found trigger given move step finishes

theorem exists_bound?_of_react [Inhabited σ] {dispatcher : Dispatcher σ} {event : Phase}
    {txn : TxnId} (taken : (dispatcher.react event txn).answer = .ok ()) :
    ∃ bound, dispatcher.bound? txn = some bound := by
  cases found : dispatcher.bound? txn with
  | none =>
      simp only [react, found] at taken
      cases taken
  | some bound => exact ⟨bound, rfl⟩

/-! ### What moving time keeps -/

/-- A property of a dispatcher and of what was done so far, that a reaction keeps and that
does not depend on the clock and the queues. -/
structure Recorded [Inhabited σ] (holds : List (Activity σ) → Dispatcher σ → Prop) : Prop where
  agenda : ∀ {journal : List (Activity σ)} {dispatcher : Dispatcher σ} delayed clocked now,
    holds journal dispatcher → holds journal { dispatcher with delayed, clocked, now }
  react : ∀ {journal : List (Activity σ)} {dispatcher : Dispatcher σ} event txn,
    holds journal dispatcher →
      holds (journal ++ (dispatcher.react event txn).journal)
        (dispatcher.react event txn).dispatcher

namespace Recorded

variable [Inhabited σ] {holds : List (Activity σ) → Dispatcher σ → Prop}
  {dispatcher : Dispatcher σ} (journal : List (Activity σ))

theorem schedule (recorded : Recorded holds) (before : holds journal dispatcher)
    (request : Request) : holds journal (dispatcher.schedule request) := by
  obtain ⟨delayed, clocked, scheduled⟩ := dispatcher.schedule_eq request
  rw [scheduled]
  exact recorded.agenda delayed clocked dispatcher.now before

theorem deliver (recorded : Recorded holds) (before : holds journal dispatcher)
    (entry : Deferred) :
    holds (journal ++ (dispatcher.deliver entry).journal)
      (dispatcher.deliver entry).dispatcher := by
  unfold Dispatcher.deliver
  split
  · rw [List.append_nil]
    exact recorded.agenda _ _ _ before
  · exact recorded.react entry.phase entry.txn before

theorem advanceTo (recorded : Recorded holds) (before : holds journal dispatcher) (time : Time)
    (budget : Nat) :
    holds (journal ++ (dispatcher.advanceTo time budget).journal)
      (dispatcher.advanceTo time budget).dispatcher := by
  have delivered : ∀ {journal : List (Activity σ)} {dispatcher : Dispatcher σ}
      {turn : Outcome σ (Except EngineError Nat)},
      holds journal dispatcher → dispatcher.deliverNext? time = some turn →
        holds (journal ++ turn.journal) turn.dispatcher := by
    intro journal dispatcher turn before taken
    obtain ⟨⟨entry, rest⟩, -, delivered⟩ := Option.map_eq_some_iff.mp taken
    rw [← delivered]
    exact recorded.deliver _ (recorded.agenda _ _ _ before) entry.toDeferred
  induction budget generalizing journal dispatcher with
  | zero =>
      unfold Dispatcher.advanceTo
      split
      · rw [List.append_nil]
        exact recorded.agenda _ _ _ before
      · rw [List.append_nil]
        exact before
  | succ budget ih =>
      unfold Dispatcher.advanceTo
      split
      · rw [List.append_nil]
        exact recorded.agenda _ _ _ before
      · rename_i turn taken
        split
        · exact delivered before taken
        · rw [← List.append_assoc]
          exact ih _ (delivered before taken)

theorem reactAll (recorded : Recorded holds) (before : holds journal dispatcher)
    (entries : List Waiting) :
    holds (journal ++ (dispatcher.reactAll entries).journal)
      (dispatcher.reactAll entries).dispatcher := by
  induction entries generalizing journal dispatcher with
  | nil =>
      unfold Dispatcher.reactAll
      rw [List.append_nil]
      exact before
  | cons entry rest ih =>
      have reacted := recorded.react entry.phase entry.txn before
      unfold Dispatcher.reactAll
      simp only
      split
      · exact reacted
      · rw [← List.append_assoc]
        exact ih _ reacted

theorem clockEdge (recorded : Recorded holds) (before : holds journal dispatcher) :
    holds (journal ++ dispatcher.clockEdge.journal) dispatcher.clockEdge.dispatcher :=
  recorded.reactAll journal (recorded.agenda _ dispatcher.clocked.tick.2 _ before)
    dispatcher.clocked.tick.1

end Recorded

/-- A property that a reaction keeps, and that does not depend on the clock and the queues. -/
structure Lasting [Inhabited σ] (holds : Dispatcher σ → Prop) : Prop where
  agenda : ∀ {dispatcher : Dispatcher σ} delayed clocked now, holds dispatcher →
    holds { dispatcher with delayed, clocked, now }
  react : ∀ {dispatcher : Dispatcher σ} event txn, holds dispatcher →
    holds (dispatcher.react event txn).dispatcher

namespace Lasting

variable [Inhabited σ] {holds : Dispatcher σ → Prop} {dispatcher : Dispatcher σ}

theorem recorded (lasting : Lasting holds) : Recorded (fun _ : List (Activity σ) => holds) where
  agenda := lasting.agenda
  react := lasting.react

theorem schedule (lasting : Lasting holds) (before : holds dispatcher) (request : Request) :
    holds (dispatcher.schedule request) :=
  lasting.recorded.schedule [] before request

theorem deliver (lasting : Lasting holds) (before : holds dispatcher) (entry : Deferred) :
    holds (dispatcher.deliver entry).dispatcher :=
  lasting.recorded.deliver [] before entry

theorem advanceTo (lasting : Lasting holds) (before : holds dispatcher) (time : Time)
    (budget : Nat) : holds (dispatcher.advanceTo time budget).dispatcher :=
  lasting.recorded.advanceTo [] before time budget

theorem clockEdge (lasting : Lasting holds) (before : holds dispatcher) :
    holds dispatcher.clockEdge.dispatcher :=
  lasting.recorded.clockEdge [] before

end Lasting

end Handshake.Dispatcher
