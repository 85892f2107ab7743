import Handshake.Proofs.Engine.Frame
import Handshake.Proofs.Language
set_option autoImplicit false

/-! The words that retire a transaction. A transaction that was just bound, in whatever
state the dispatcher and its other transactions are, is fed phases one by one. Every phase is
taken and the transaction is retired with the last of them exactly if its machine, idle at
first, is taken to its end by the word. -/

namespace Handshake

theorem Handle.trigger?_eq {σ : Type} (handle : Handle σ) (config : EngineConfig)
    (event : Phase) :
    handle.trigger? config event =
      handle.state.trigger? config.writeStart (config.ack && !handle.isSnoop) event := by
  cases event with
  | writeValid | writeReady => simp [Handle.trigger?, State.trigger?, Phase.isEarly]
  | endResponse =>
      cases owed : (config.ack && !handle.isSnoop) <;>
        simp [Handle.trigger?, State.trigger?, Phase.isEarly, Phase.owing, owed]
  | _ => rfl

namespace Dispatcher

variable {σ : Type} [Inhabited σ]

def feed (dispatcher : Dispatcher σ) (txn : TxnId) (word : List Phase) : Dispatcher σ :=
  word.foldl (fun reached event => (reached.react event txn).dispatcher) dispatcher

/-- Every phase of the word is taken, and the transaction is active before each of them and
retired after the last. -/
structure RetiredBy (dispatcher : Dispatcher σ) (txn : TxnId) (word : List Phase) : Prop where
  taken : ∀ before event after, word = before ++ event :: after →
    ((dispatcher.feed txn before).react event txn).answer = .ok ()
  retired : ∀ before after, word = before ++ after →
    ((dispatcher.feed txn before).isActive txn = false ↔ after = [])

variable {dispatcher : Dispatcher σ} {txn : TxnId} {event : Phase} {rest word : List Phase}

private theorem retiredBy_cons_iff :
    dispatcher.RetiredBy txn (event :: rest) ↔
      dispatcher.isActive txn = true ∧ (dispatcher.react event txn).answer = .ok () ∧
        if (dispatcher.react event txn).dispatcher.isActive txn then
          (dispatcher.react event txn).dispatcher.RetiredBy txn rest
        else rest = [] := by
  constructor
  · intro whole
    have active : dispatcher.isActive txn = true := by
      cases active : dispatcher.isActive txn with
      | true => rfl
      | false => cases (whole.retired [] (event :: rest) rfl).mp active
    refine ⟨active, whole.taken [] event rest rfl, ?_⟩
    split
    · refine ⟨?_, ?_⟩
      · intro before next after split
        exact whole.taken (event :: before) next after (by rw [split]; rfl)
      · intro before after split
        exact whole.retired (event :: before) after (by rw [split]; rfl)
    · rename_i inactive
      exact (whole.retired [event] rest rfl).mp (Bool.eq_false_iff.mpr inactive)
  · rintro ⟨active, accepted, later⟩
    refine ⟨?_, ?_⟩
    · intro before next after split
      cases before with
      | nil =>
          cases split
          exact accepted
      | cons first before =>
          cases split
          split at later
          · exact later.taken before next after rfl
          · simp at later
    · intro before after split
      cases before with
      | nil =>
          cases split
          simp [feed, active]
      | cons first before =>
          cases split
          split at later
          · exact later.retired before after rfl
          · rename_i inactive
            obtain ⟨rfl, rfl⟩ := List.append_eq_nil_iff.mp later
            simpa [feed] using inactive

theorem isActive_of_bound? {bound : Bound σ} (found : dispatcher.bound? txn = some bound) :
    dispatcher.isActive txn = true := by
  simp only [isActive, Table.contains, (bound?_eq_some_iff.mp found).1, Option.isSome_some]

/-- Whether a word retires a transaction is decided by the state of its machine alone. -/
theorem retiredBy_iff_finishes {bindings : Nat} {bound : Bound σ}
    (sound : Sound bindings dispatcher) (found : dispatcher.bound? txn = some bound) :
    dispatcher.RetiredBy txn word ↔
      bound.handle.state.finishes dispatcher.config.writeStart
        (dispatcher.config.ack && !bound.handle.isSnoop) word := by
  induction word generalizing dispatcher bound with
  | nil =>
      have active := isActive_of_bound? found
      refine ⟨fun whole => ?_, False.elim⟩
      have retired : dispatcher.isActive txn = false := (whole.retired [] [] rfl).mpr rfl
      rw [retired] at active
      cases active
  | cons event rest ih =>
      have active := isActive_of_bound? found
      -- what the machine is in after the reaction decides about the rest of the word
      have goesOn : ∀ (next : State) (fired : List Phase) (trigger : Phase),
          (dispatcher.advanceMachine txn bound trigger next fired).dispatcher.RetiredBy txn rest ↔
            next.finishes dispatcher.config.writeStart
              (dispatcher.config.ack && !bound.handle.isSnoop) rest := by
        intro next fired trigger
        rw [ih (sound.advanceMachine found trigger next fired)
          (bound?_advanceMachine_self found trigger next fired), config_advanceMachine]
        rfl
      have stays : ∀ (next : State) (fired : List Phase) (trigger : Phase),
          (dispatcher.advanceMachine txn bound trigger next fired).dispatcher.isActive txn =
            true :=
        fun next fired trigger =>
          isActive_of_bound? (bound?_advanceMachine_self found trigger next fired)
      have reaction := dispatcher.react_reaction event txn
      rw [retiredBy_cons_iff]
      generalize dispatcher.react event txn = outcome at reaction ⊢
      cases reaction with
      | unbound absent =>
          rw [absent] at found
          cases found
      | notified other same early =>
          rw [found, Option.some.injEq] at same
          subst same
          rw [Handle.trigger?_eq] at early
          simp only [active, stays, goesOn, if_true, true_and,
            State.finishes_cons_of_notified early]
      | refused other same trigger given stuck =>
          rw [found, Option.some.injEq] at same
          subst same
          rw [Handle.trigger?_eq] at given
          simp only [State.finishes, given, stuck, reduceCtorEq, false_and, and_false]
      | moved other same trigger given move step busy =>
          rw [found, Option.some.injEq] at same
          subst same
          rw [Handle.trigger?_eq] at given
          simp only [active, stays, goesOn, if_true, true_and, State.finishes, given, step,
            if_neg busy]
      | finished other same trigger given move step finishes =>
          rw [found, Option.some.injEq] at same
          subst same
          rw [Handle.trigger?_eq] at given
          have retired : ((dispatcher.advanceMachine txn bound trigger move.next
              move.fired).dispatcher.retire txn bound.id).isActive txn = false := by
            simp only [isActive, Table.contains, retire, Table.get?_erase_self,
              Option.isSome_none]
          simp only [active, retired, true_and, State.finishes, given, step, if_pos finishes,
            Bool.false_eq_true, if_false]

theorem bound?_bind_self {bindings : Nat} (sound : Sound bindings dispatcher)
    (record : Option Transaction) (isSnoop : Bool)
    (inactive : dispatcher.isActive (dispatcher.identity record) = false) :
    ∃ bound, (dispatcher.bind record isSnoop).dispatcher.bound? (dispatcher.identity record) =
        some bound ∧
      bound.handle.state = .idle ∧ bound.handle.isSnoop = isSnoop := by
  have free : dispatcher.active.get? (dispatcher.identity record) = none := by
    simpa [isActive, Table.contains] using inactive
  cases record with
  | some record =>
      obtain ⟨bound, found, -, idle, -, snoop⟩ :=
        bound?_bindRecord_self sound record isSnoop free
      exact ⟨bound, found, idle, snoop⟩
  | none =>
      have numbered : Sound bindings { dispatcher with snoops := dispatcher.snoops + 1 } :=
        { sound with }
      obtain ⟨bound, found, -, idle, -, snoop⟩ :=
        bound?_bindRecord_self numbered (.forSnoop ⟨snoopBase + dispatcher.snoops⟩) isSnoop free
      exact ⟨bound, found, idle, snoop⟩

/-- After every run of calls, a transaction that is bound anew is retired by exactly those
words that no notification ends and that are, heard without their notifications, a whole
transaction. -/
theorem retiredBy_bind_iff (config : EngineConfig) (wiring : HandleId → CallbackTable σ)
    (operations : List Operation) (record : Option Transaction) (isSnoop : Bool)
    (word : List Phase)
    (inactive : ((new config wiring).performAll operations).isActive
      (((new config wiring).performAll operations).identity record) = false) :
    (((new config wiring).performAll operations).bind record isSnoop).dispatcher.RetiredBy
        (((new config wiring).performAll operations).identity record) word ↔
      LastIsHeard word ∧
        IsWhole config.writeStart (config.ack && !isSnoop) (heard config.writeStart word) := by
  have sound := (sound_new config wiring).performAll operations
  obtain ⟨bound, found, idle, snoop⟩ := bound?_bind_self sound record isSnoop inactive
  rw [retiredBy_iff_finishes (sound.bind record isSnoop) found, idle, snoop,
    State.finishes_idle_iff, config_bind, config_performAll]
  rfl

theorem retiredBy_of_announced_write :
    ((new ⟨8, true, .writeValid⟩ (fun _ => .empty) : Dispatcher Unit).performAll
        [.bind (some (.plain ⟨0⟩ .read)) true, .react .beginRequest ⟨0⟩,
          .react .beginResponse ⟨0⟩, .react .endResponse ⟨0⟩]).isActive ⟨1⟩ = false ∧
      (((new ⟨8, true, .writeValid⟩ (fun _ => .empty) : Dispatcher Unit).performAll
        [.bind (some (.plain ⟨0⟩ .read)) true, .react .beginRequest ⟨0⟩,
          .react .beginResponse ⟨0⟩, .react .endResponse ⟨0⟩]).bind
            (some (.plain ⟨1⟩ .write)) false).dispatcher.RetiredBy ⟨1⟩
        [.writeReady, .writeValid, .beginPartialRequest, .writeValid, .endPartialRequest,
          .beginRequest, .writeReady, .beginResponse, .endResponse, .acknowledge] := by
  have inactive : ((new ⟨8, true, .writeValid⟩ (fun _ => .empty) : Dispatcher Unit).performAll
      [.bind (some (.plain ⟨0⟩ .read)) true, .react .beginRequest ⟨0⟩,
        .react .beginResponse ⟨0⟩, .react .endResponse ⟨0⟩]).isActive ⟨1⟩ = false := rfl
  refine ⟨inactive, (retiredBy_bind_iff ⟨8, true, .writeValid⟩ _ _
    (some (.plain ⟨1⟩ .write)) false _ inactive).mpr ⟨by simp [LastIsHeard, Phase.isEarly], ?_⟩⟩
  have answer : IsAnswer true [.beginResponse, .endResponse, .acknowledge] :=
    ⟨0, [.endResponse, .acknowledge], List.mem_cons_self, rfl⟩
  have course : IsCourse true [.beginPartialRequest, .endPartialRequest, .beginRequest,
      .beginResponse, .endResponse, .acknowledge] := ⟨1, _, ⟨_, answer, .inl rfl⟩, rfl⟩
  exact ⟨_, course, .inr ⟨.writeValid, rfl, rfl⟩⟩

/-- A notification that comes after the end of a transaction is refused, although what is
heard of the word is a whole transaction. -/
theorem not_retiredBy_of_trailing_notification :
    ¬ (((new {} (fun _ => .empty) : Dispatcher Unit).bind
        (some (.plain ⟨0⟩ .read)) false).dispatcher.RetiredBy ⟨0⟩
          [.beginRequest, .beginResponse, .endResponse, .writeValid] ↔
      IsWhole .request false
        (heard .request [.beginRequest, .beginResponse, .endResponse, .writeValid])) := by
  have whole : IsWhole .request false
      (heard .request [.beginRequest, .beginResponse, .endResponse, .writeValid]) :=
    ⟨_, ⟨0, _, ⟨_, ⟨0, [.endResponse], List.mem_cons_self, rfl⟩, .inl rfl⟩, rfl⟩, .inl rfl⟩
  have refused : ((((new {} (fun _ => .empty) : Dispatcher Unit).bind
      (some (.plain ⟨0⟩ .read)) false).dispatcher.feed ⟨0⟩
        [.beginRequest, .beginResponse, .endResponse]).react .writeValid ⟨0⟩).answer =
          .error (.noActiveHandle ⟨0⟩ .writeValid) := rfl
  intro same
  have accepted := (same.mpr whole).taken
    [.beginRequest, .beginResponse, .endResponse] .writeValid [] rfl
  rw [refused] at accepted
  cases accepted

end Dispatcher

end Handshake
