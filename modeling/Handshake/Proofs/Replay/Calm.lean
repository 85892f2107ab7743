import Handshake.Proofs.Engine.Frame
import Handshake.Replay
set_option autoImplicit false

/-! The dispatcher of a replay. Its callbacks schedule nothing, so its queues stay empty and
moving time only sets the clock. A callback counts a beat at the end of every beat but the
last, and tells of a completion when a transaction comes to its end. A reaction that is
accepted moves one machine by one step of the phase graph. -/

namespace Handshake.Replay

/-! ### The callbacks -/

private theorem at?_callbacks (phase : Phase) :
    callbacks.at? phase =
      match phase with
      | .responsePhaseBegin => some noteResponse
      | .endPartialRequest | .endPartialResponse => some countBeat
      | .endResponse | .acknowledge => some Context.unchanged
      | _ => none := by
  cases phase <;> rfl

def beatsEnded (phase : Phase) : Nat :=
  [phase].count .endPartialRequest + [phase].count .endPartialResponse

def completes (trigger : Phase) : Bool :=
  trigger = .endResponse || trigger = .acknowledge

variable {state : State} {trigger : Phase} {move : Move}

private theorem requests_run (fired : List Phase) (context : Context Timeline) :
    (callbacks.run fired context).requests = [] := by
  induction fired generalizing context with
  | nil => rfl
  | cons phase rest ih =>
      simp only [CallbackTable.run, at?_callbacks]
      cases phase <;> simp [ih, noteResponse, countBeat, Context.unchanged]

theorem beats_of_step (step : state.step trigger = some move) (context : Context Timeline) :
    (callbacks.run move.fired context).context.beats = context.beats + beatsEnded trigger := by
  cases state <;> cases trigger <;> cases step <;>
    simp [CallbackTable.run, at?_callbacks, noteResponse, countBeat, Context.unchanged,
      beatsEnded]

theorem scratch_of_step (step : state.step trigger = some move) (context : Context Timeline) :
    (callbacks.run move.fired context).context.scratch =
      if state = .request then ⟨some context.now⟩ else context.scratch := by
  cases state <;> cases trigger <;> cases step <;>
    simp [CallbackTable.run, at?_callbacks, noteResponse, countBeat, Context.unchanged]

theorem completion_of_step (step : state.step trigger = some move) (context : Context Timeline)
    (ack : Bool) :
    (callbacks.run move.fired context).calls.filterMap (completion? ack) =
      if trigger = .acknowledge ∨ (trigger = .endResponse ∨ trigger = .endResponseNoAck) ∧
          (ack = false ∨ context.isSnoop = true) then
        [⟨context.record.uid, context.beats + 1, context.start, context.scratch.responseBegan,
          context.now⟩]
      else [] := by
  cases ack <;> cases snoop : context.isSnoop <;> cases state <;> cases trigger <;>
    cases step <;>
      simp [CallbackTable.run, at?_callbacks, noteResponse, countBeat, Context.unchanged,
        completion?, snoop]

/-- A completion is told of with the last step of a transaction, and tells its beats. -/
theorem completions_of_step (step : state.step trigger = some move)
    (context : Context Timeline) {ack : Bool}
    (ended : trigger = .endResponse → ack = false ∨ context.isSnoop = true)
    (postponed : trigger = .endResponseNoAck → ack = true ∧ context.isSnoop = false) :
    ((callbacks.run move.fired context).calls.filterMap (completion? ack)).map
        (fun completion => (completion.txn, completion.beats)) =
      if completes trigger then [(context.record.uid, context.beats + 1)] else [] := by
  rw [completion_of_step step]
  cases trigger <;> simp_all [completes]

private theorem owes_of_trigger? {handle : Handle Timeline} {config : EngineConfig} {event : Phase}
    (given : handle.trigger? config event = some trigger) (outer : event ≠ .endResponseNoAck) :
    (trigger = .endResponse → config.ack = false ∨ handle.isSnoop = true) ∧
      (trigger = .endResponseNoAck → config.ack = true ∧ handle.isSnoop = false) := by
  cases event with
  | endResponse =>
      simp only [Handle.trigger?] at given
      cases ack : config.ack <;> cases isSnoop : handle.isSnoop <;> simp_all
      all_goals
        cases given
        simp
  | writeValid | writeReady =>
      simp only [Handle.trigger?] at given
      split at given <;> cases given
      simp
  | endResponseNoAck => exact absurd rfl outer
  | _ =>
      cases given
      simp

def completionsOf (ack : Bool) (journal : List (Activity Timeline)) : List Completion :=
  journal.filterMap (Activity.completion? ack)

theorem completionsOf_called (ack : Bool) (calls : List (Context Timeline)) :
    completionsOf ack (calls.map .called) = calls.filterMap (completion? ack) := by
  rw [completionsOf, List.filterMap_map]
  rfl

/-! ### The dispatcher -/

def progress? (dispatcher : Dispatcher Timeline) (txn : TxnId) : Option (State × Nat) :=
  (dispatcher.bound? txn).map (fun bound => (bound.handle.state, bound.handle.beats))

theorem completionsOf_bind (dispatcher : Dispatcher Timeline) (record : Transaction)
    (isSnoop ack : Bool) :
    completionsOf ack (dispatcher.bind (some record) isSnoop).journal = [] := by
  simp only [Dispatcher.bind, Dispatcher.bindRecord]
  split
  · rfl
  · unfold Dispatcher.pick
    split <;> rfl

/-- The state of the dispatcher between the events of a replay. -/
structure Calm (engine : EngineConfig) (dispatcher : Dispatcher Timeline) : Prop where
  sound : ∃ bindings, dispatcher.Sound bindings
  config : dispatcher.config = engine
  delayed : dispatcher.delayed = .empty
  clocked : dispatcher.clocked = .empty
  wiring : ∀ id, dispatcher.wiring id = callbacks
  wired : ∀ handle ∈ dispatcher.handles, handle.callbacks = callbacks

theorem calm_new (engine : EngineConfig) : Calm engine (.new engine (fun _ => callbacks)) where
  sound := ⟨0, Dispatcher.sound_new engine _⟩
  config := rfl
  delayed := rfl
  clocked := rfl
  wiring := fun _ => rfl
  wired := by intro handle member; cases member

namespace Calm

variable {engine : EngineConfig} {dispatcher : Dispatcher Timeline}

private theorem wiredAlike (calm : Calm engine dispatcher) : dispatcher.WiredAlike callbacks :=
  ⟨calm.wiring, calm.wired⟩

theorem withNow (calm : Calm engine dispatcher) (now : Time) :
    Calm engine { dispatcher with now } := by
  obtain ⟨bindings, sound⟩ := calm.sound
  exact { calm with sound := ⟨bindings, { sound with }⟩ }

private theorem advanceTo (calm : Calm engine dispatcher) (time : Time) (budget : Nat) :
    dispatcher.advanceTo time budget =
      ⟨{ dispatcher with now := max dispatcher.now time }, [], .ok 0⟩ := by
  have none : dispatcher.deliverNext? time = none := by
    simp only [Dispatcher.deliverNext?, calm.delayed]
    rfl
  cases budget <;> simp only [Dispatcher.advanceTo, none]

private theorem runCycle (calm : Calm engine dispatcher) (budget : Nat) (target : Time)
    (ahead : dispatcher.now < target) :
    dispatcher.runCycle budget target = ⟨{ dispatcher with now := target }, [], .ok ()⟩ := by
  have ticked := calm.withNow (max dispatcher.now (dispatcher.now + 1))
  have still : ({ dispatcher with
      now := max dispatcher.now (dispatcher.now + 1) }).wantsClock = false := by
    simp only [Dispatcher.wantsClock, calm.clocked]
    rfl
  have nothing : ({ dispatcher with
      now := max dispatcher.now (dispatcher.now + 1) }).nextDue?.all (target ≤ ·) = true := by
    simp only [Dispatcher.nextDue?, calm.delayed]
    rfl
  have reached : max (max dispatcher.now (dispatcher.now + 1)) target = target := by
    rw [Nat.max_eq_right (Nat.le_succ dispatcher.now), Nat.max_eq_right ahead]
  simp only [Dispatcher.runCycle, calm.advanceTo, still, nothing, ticked.advanceTo, reached,
    Bool.false_eq_true, if_false, if_true, List.append_nil]
  rfl

theorem runUntil (calm : Calm engine dispatcher) (budget : Nat) (target : Time) :
    dispatcher.runUntil budget target =
      ⟨{ dispatcher with now := max dispatcher.now target }, [], .ok ()⟩ := by
  unfold Dispatcher.runUntil
  cases distance : target - dispatcher.now with
  | zero =>
      have reached : max dispatcher.now target = dispatcher.now :=
        Nat.max_eq_left (Nat.sub_eq_zero_iff_le.mp distance)
      rw [reached]
      rfl
  | succ cycles =>
      have ahead : dispatcher.now < target :=
        Nat.lt_of_sub_pos (by rw [distance]; exact Nat.succ_pos cycles)
      have reached : max dispatcher.now target = target :=
        Nat.max_eq_right (Nat.le_of_lt ahead)
      simp only [Dispatcher.runCycles, if_pos ahead, calm.runCycle budget target ahead, reached]
      cases cycles with
      | zero => rfl
      | succ rest => simp only [Dispatcher.runCycles, Nat.lt_irrefl, if_false, List.append_nil]

/-! ### Binding -/

theorem bind (calm : Calm engine dispatcher) (record : Transaction) (isSnoop : Bool) :
    Calm engine (dispatcher.bind (some record) isSnoop).dispatcher := by
  obtain ⟨bindings, sound⟩ := calm.sound
  have bound := sound.bind (some record) isSnoop
  simp only [Dispatcher.bind] at bound ⊢
  have wired := calm.wiredAlike.bindRecord record isSnoop
  refine ⟨⟨_, bound⟩, ?_, ?_, ?_, wired.wiring, wired.handles⟩
  all_goals
    unfold Dispatcher.bindRecord
    split
  · exact calm.config
  · unfold Dispatcher.pick
    split <;> exact calm.config
  · exact calm.delayed
  · unfold Dispatcher.pick
    split <;> exact calm.delayed
  · exact calm.clocked
  · unfold Dispatcher.pick
    split <;> exact calm.clocked

theorem progress?_bind_self (calm : Calm engine dispatcher) (record : Transaction)
    (isSnoop : Bool) :
    progress? (dispatcher.bind (some record) isSnoop).dispatcher record.uid =
      some ((progress? dispatcher record.uid).getD (.idle, 0)) := by
  obtain ⟨bindings, sound⟩ := calm.sound
  simp only [progress?, Dispatcher.bind]
  cases found : dispatcher.bound? record.uid with
  | some bound =>
      rw [Dispatcher.bound?_bindRecord_of_bound found]
      rfl
  | none =>
      have inactive := sound.inactive_of_bound?_eq_none found
      obtain ⟨bound, bindsAnew, -, idle, beats, -⟩ :=
        Dispatcher.bound?_bindRecord_self sound record isSnoop inactive
      rw [bindsAnew, Option.map_some, idle, beats]
      rfl

theorem progress?_bind_of_ne (calm : Calm engine dispatcher) (record : Transaction)
    (isSnoop : Bool) {other : TxnId} (different : other ≠ record.uid) :
    progress? (dispatcher.bind (some record) isSnoop).dispatcher other =
      progress? dispatcher other := by
  obtain ⟨bindings, sound⟩ := calm.sound
  simp only [progress?, Dispatcher.bind,
    Dispatcher.bound?_bindRecord_of_ne sound record isSnoop different]

/-! ### Reacting -/

variable {event : Phase} {txn : TxnId} {bound : Dispatcher.Bound Timeline}

theorem runOf_eq (calm : Calm engine dispatcher) (found : dispatcher.bound? txn = some bound)
    (event : Phase) (fired : List Phase) :
    dispatcher.runOf bound event fired =
      callbacks.run fired (dispatcher.contextOf bound event) := by
  rw [Dispatcher.runOf, calm.wiredAlike.callbacks_of_bound? found]

theorem advanceMachine (calm : Calm engine dispatcher)
    (found : dispatcher.bound? txn = some bound) (event : Phase) (next : State)
    (fired : List Phase) :
    Calm engine (dispatcher.advanceMachine txn bound event next fired).dispatcher ∧
      (dispatcher.advanceMachine txn bound event next fired).dispatcher.finished =
        dispatcher.finished ∧
      (dispatcher.advanceMachine txn bound event next fired).journal =
        (dispatcher.runOf bound event fired).calls.map .called := by
  obtain ⟨bindings, sound⟩ := calm.sound
  have advanced := sound.advanceMachine found event next fired
  have wired := calm.wiredAlike.advanceMachine found event next fired
  have nothing : (dispatcher.runOf bound event fired).requests = [] := by
    rw [calm.runOf_eq found]
    exact requests_run fired _
  rw [dispatcher.advanceMachine_of_no_requests txn bound event next fired sound.settled nothing]
    at advanced wired ⊢
  exact ⟨⟨⟨_, advanced⟩, calm.config, calm.delayed, calm.clocked, wired.wiring, wired.handles⟩,
    rfl, rfl⟩

private theorem progress?_advanceMachine (calm : Calm engine dispatcher)
    (found : dispatcher.bound? txn = some bound)
    (step : bound.handle.state.step trigger = some move) :
    progress? (dispatcher.advanceMachine txn bound trigger move.next move.fired).dispatcher txn =
      some (move.next, bound.handle.beats + beatsEnded trigger) := by
  have beats : (dispatcher.runOf bound trigger move.fired).context.beats =
      bound.handle.beats + beatsEnded trigger := by
    rw [calm.runOf_eq found]
    exact beats_of_step step _
  rw [progress?, Dispatcher.bound?_advanceMachine_self found, ← beats]
  rfl

theorem retire (calm : Calm engine dispatcher)
    (found : dispatcher.bound? txn = some bound) (idle : bound.handle.state = .idle) :
    Calm engine (dispatcher.retire txn bound.id) := by
  obtain ⟨bindings, sound⟩ := calm.sound
  obtain ⟨active, present, -, -⟩ := Dispatcher.bound?_eq_some_iff.mp found
  exact ⟨⟨_, sound.retire active present idle⟩, calm.config, calm.delayed, calm.clocked,
    calm.wiring, (Dispatcher.WiredAlike.iff_wired.mp calm.wiredAlike).modify _ (fun _ => rfl)⟩

private theorem completionsOf_advanceMachine (calm : Calm engine dispatcher)
    (found : dispatcher.bound? txn = some bound)
    (given : bound.handle.trigger? dispatcher.config event = some trigger)
    (outer : event ≠ .endResponseNoAck)
    (step : bound.handle.state.step trigger = some move) :
    (completionsOf engine.ack
        (dispatcher.advanceMachine txn bound trigger move.next move.fired).journal).map
          (fun completion => (completion.txn, completion.beats)) =
      if completes trigger then [(txn, bound.handle.beats + 1)] else [] := by
  obtain ⟨bindings, sound⟩ := calm.sound
  have own := sound.uid_of_bound? found
  have owes := owes_of_trigger? given outer
  rw [calm.config] at owes
  rw [(calm.advanceMachine found trigger move.next move.fired).2.2, completionsOf_called,
    calm.runOf_eq found, completions_of_step step _ owes.1 owes.2]
  simp only [Dispatcher.contextOf, own]

/-- A reaction that is accepted moves the machine of its transaction by a step of the phase
graph, counts the beat that ended, and tells of the completion at the end. -/
theorem react (calm : Calm engine dispatcher) (found : dispatcher.bound? txn = some bound)
    (given : bound.handle.trigger? engine event = some trigger)
    (outer : event ≠ .endResponseNoAck) (accepted : (dispatcher.react event txn).answer = .ok ()) :
    ∃ move, bound.handle.state.step trigger = some move ∧
      Calm engine (dispatcher.react event txn).dispatcher ∧
      progress? (dispatcher.react event txn).dispatcher txn =
        (if move.next = .idle then none
          else some (move.next, bound.handle.beats + beatsEnded trigger)) ∧
      (completionsOf engine.ack (dispatcher.react event txn).journal).map
          (fun completion => (completion.txn, completion.beats)) =
        if completes trigger then [(txn, bound.handle.beats + 1)] else [] := by
  rw [← calm.config] at given
  have reaction := dispatcher.react_reaction event txn
  generalize dispatcher.react event txn = outcome at reaction accepted ⊢
  cases reaction with
  | unbound absent =>
      rw [absent] at found
      cases found
  | notified other same early =>
      rw [found, Option.some.injEq] at same
      rw [← same, given] at early
      cases early
  | refused other same refusing begun stuck => cases accepted
  | moved other same taken begun move step busy =>
      rw [found, Option.some.injEq] at same
      subst same
      rw [given, Option.some.injEq] at begun
      subst begun
      refine ⟨move, step, (calm.advanceMachine found _ _ _).1, ?_, ?_⟩
      · rw [if_neg busy, calm.progress?_advanceMachine found step]
      · rw [← calm.completionsOf_advanceMachine found given outer step]
        rfl
  | finished other same taken begun move step finishes =>
      rw [found, Option.some.injEq] at same
      subst same
      rw [given, Option.some.injEq] at begun
      subst begun
      have after := (calm.advanceMachine found trigger move.next move.fired).1
      have boundAfter :=
        Dispatcher.bound?_advanceMachine_self found trigger move.next move.fired
      have retired := after.retire boundAfter finishes
      refine ⟨move, step, retired, ?_, ?_⟩
      · rw [if_pos finishes, progress?, Dispatcher.bound?_retire_self]
        rfl
      · rw [← calm.completionsOf_advanceMachine found given outer step, completionsOf,
          List.cons_append, List.cons_append]
        simp only [List.filterMap_cons, List.filterMap_append, List.filterMap_nil,
          Activity.completion?, List.append_nil]
        rfl

end Calm

end Handshake.Replay
