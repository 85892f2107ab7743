import Handshake.Proofs.Engine.Retirement
set_option autoImplicit false

/-! Reactions that are refused. A phase is refused if its transaction is not active, or if the
phase graph does not allow it in the state of the transaction's machine. A reaction asks for the
handle, the record and the scratch value of its transaction before it asks the graph; as every
active transaction has all three, nothing is made up on the way, and a refusal leaves the
dispatcher exactly as it was. -/

namespace Handshake

namespace Handle

variable {σ : Type} {handle : Handle σ} {config : EngineConfig} {event trigger : Phase}

/-- An early signal is a mere notification unless it is the configured start of a burst and the
machine is idle. -/
def Notifies (handle : Handle σ) (config : EngineConfig) (event : Phase) : Prop :=
  (event = .writeValid ∨ event = .writeReady) ∧
    (config.writeStart.trigger? ≠ some event ∨ handle.state ≠ .idle)

/-- The event that the machine is given: where an acknowledgment is owed, the end of a response
is not the end of the transaction. -/
def effective (handle : Handle σ) (config : EngineConfig) (event : Phase) : Phase :=
  event.owing (config.ack && !handle.isSnoop)

theorem trigger?_eq_none_iff :
    handle.trigger? config event = none ↔ handle.Notifies config event := by
  have named : event.isEarly = true ↔ event = .writeValid ∨ event = .writeReady := by
    cases event <;> simp [Phase.isEarly]
  rw [trigger?_eq, Notifies, ← named]
  simp only [State.trigger?]
  split
  · rename_i early
    split <;> simp_all [Decidable.imp_iff_not_or]
  · rename_i loud
    simp [loud]

private theorem eq_effective_of_trigger? (given : handle.trigger? config event = some trigger) :
    trigger = handle.effective config event := by
  rw [trigger?_eq, State.trigger?] at given
  split at given
  · rename_i early
    split at given
    · cases given
      -- an early signal is not the end of a response
      cases event with
      | writeValid | writeReady => rfl
      | _ => cases early
    · cases given
  · cases given
    rfl

end Handle

namespace Dispatcher

variable {σ : Type} [Inhabited σ] {bindings : Nat} {dispatcher : Dispatcher σ} {event : Phase}
  {txn : TxnId} {bound : Bound σ} {error : EngineError}

theorem handle?_of_bound? (found : dispatcher.bound? txn = some bound) :
    dispatcher.handle? txn = some bound.handle := by
  obtain ⟨active, present, -, -⟩ := bound?_eq_some_iff.mp found
  rw [handle?, active]
  exact present

private theorem react_of_unbound (absent : dispatcher.bound? txn = none) :
    dispatcher.react event txn = ⟨dispatcher, [], .error (.noActiveHandle txn event)⟩ := by
  simp only [react, absent]

private theorem answer_eq_error_iff (found : dispatcher.bound? txn = some bound) :
    (dispatcher.react event txn).answer = .error error ↔
      ¬ bound.handle.Notifies dispatcher.config event ∧
        bound.handle.state.step (bound.handle.effective dispatcher.config event) = none ∧
          error = .noTransition txn bound.handle.state
            (bound.handle.effective dispatcher.config event) := by
  rw [← Handle.trigger?_eq_none_iff]
  have reaction := dispatcher.react_reaction event txn
  generalize dispatcher.react event txn = outcome at reaction ⊢
  cases reaction with
  | unbound absent =>
      rw [absent] at found
      cases found
  | notified other same early =>
      rw [found, Option.some.injEq] at same
      subst same
      simp [early]
  | refused other same trigger given stuck =>
      rw [found, Option.some.injEq] at same
      subst same
      rw [← Handle.eq_effective_of_trigger? given, given]
      simp [stuck, eq_comm]
  | moved other same trigger given move step busy =>
      rw [found, Option.some.injEq] at same
      subst same
      rw [← Handle.eq_effective_of_trigger? given]
      simp [step]
  | finished other same trigger given move step finishes =>
      rw [found, Option.some.injEq] at same
      subst same
      rw [← Handle.eq_effective_of_trigger? given]
      simp [step]

private theorem Sound.unchanged_of_error (sound : Sound bindings dispatcher)
    (refused : (dispatcher.react event txn).answer = .error error) :
    (dispatcher.react event txn).dispatcher = dispatcher ∧
      ∀ context, .called context ∉ (dispatcher.react event txn).journal := by
  have reaction := dispatcher.react_reaction event txn
  generalize dispatcher.react event txn = outcome at reaction refused ⊢
  cases reaction with
  | unbound absent => exact ⟨rfl, fun context => List.not_mem_nil⟩
  | refused bound found trigger given stuck =>
      exact ⟨sound.ensureScratch_eq found, fun context => by simp⟩
  | notified | moved | finished => cases refused

/-- When a phase is refused, and what a refusal leaves. -/
structure Refuses (dispatcher : Dispatcher σ) (event : Phase) (txn : TxnId) : Prop where
  inactive : (dispatcher.react event txn).answer = .error (.noActiveHandle txn event) ↔
    dispatcher.isActive txn = false
  active : dispatcher.isActive txn = true → ∃ handle, dispatcher.handle? txn = some handle ∧
    ∀ error, (dispatcher.react event txn).answer = .error error ↔
      ¬ handle.Notifies dispatcher.config event ∧
        handle.state.step (handle.effective dispatcher.config event) = none ∧
          error = .noTransition txn handle.state (handle.effective dispatcher.config event)
  -- nothing of the dispatcher is touched and no callback runs
  unchanged : ∀ error, (dispatcher.react event txn).answer = .error error →
    (dispatcher.react event txn).dispatcher = dispatcher ∧
      ∀ context, .called context ∉ (dispatcher.react event txn).journal

private theorem Sound.refuses (sound : Sound bindings dispatcher) (event : Phase) (txn : TxnId) :
    Refuses dispatcher event txn := by
  cases found : dispatcher.bound? txn with
  | none =>
      have absent := sound.inactive_of_bound?_eq_none found
      have inactive : dispatcher.isActive txn = false := by
        simp only [isActive, Table.contains, absent, Option.isSome_none]
      refine ⟨?_, ?_, fun error => sound.unchanged_of_error⟩
      · rw [react_of_unbound found]
        exact iff_of_true rfl inactive
      · intro active
        rw [inactive] at active
        cases active
  | some bound =>
      have active := isActive_of_bound? found
      refine ⟨?_, ?_, fun error => sound.unchanged_of_error⟩
      · rw [answer_eq_error_iff found, active]
        simp
      · intro _
        exact ⟨bound.handle, handle?_of_bound? found, fun error => answer_eq_error_iff found⟩

/-- After every run of calls, failed ones among them: a phase is refused for want of a handle
exactly if its transaction is not active, and for want of a step exactly if the graph has none
for it and it is no notification; and a refusal runs no callback and changes nothing. -/
theorem performAll_new_refuses (config : EngineConfig) (wiring : HandleId → CallbackTable σ)
    (operations : List Operation) (event : Phase) (txn : TxnId) :
    Refuses ((new config wiring).performAll operations) event txn :=
  ((sound_new config wiring).performAll operations).refuses event txn

end Dispatcher

end Handshake
