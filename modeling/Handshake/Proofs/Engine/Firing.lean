import Handshake.Proofs.Discipline
import Handshake.Proofs.Engine.Journal
import Handshake.Proofs.Engine.Refusal
set_option autoImplicit false

/-! The callbacks that run in the life of a transaction. With a callback on every slot, what
runs for a transaction between its binding and its end is what its machine fires and the
notifications that come in between, whoever brings them: the host, the delay queue or a clock
edge. -/

namespace Handshake

def CallbackTable.Registered {σ : Type} (table : CallbackTable σ) : Prop :=
  ∀ slot, (table.callback? slot).isSome = true

namespace CallbackTable

variable {σ : Type} {table : CallbackTable σ}

private theorem Registered.map_phase_calls (registered : table.Registered) {fired : List Phase}
    (slots : ∀ phase ∈ fired, phase.slot?.isSome = true) (context : Context σ) :
    (table.run fired context).calls.map Context.phase = fired := by
  induction fired generalizing context with
  | nil => rfl
  | cons phase rest ih =>
      have later := ih (fun phase member => slots phase (List.mem_cons_of_mem _ member))
      obtain ⟨slot, has⟩ := Option.isSome_iff_exists.mp (slots phase List.mem_cons_self)
      obtain ⟨callback, set⟩ := Option.isSome_iff_exists.mp (registered slot)
      have found : table.at? phase = some callback := by
        rw [at?, has]
        exact set
      simp only [run, found, List.map_cons, later]

end CallbackTable

private theorem State.slot?_of_fired {state : State} {trigger : Phase} {move : Move}
    (step : state.step trigger = some move) :
    ∀ phase ∈ move.fired, phase.slot?.isSome = true := by
  cases state <;> cases trigger <;> cases step <;> decide

/-! ### What a journal tells of a transaction -/

namespace Activity

variable {σ : Type}

/-- Whether a callback runs for a transaction, its machine moves or it comes to its end. -/
def concerns (txn : TxnId) : Activity σ → Bool
  | called context => context.record.uid = txn
  | moved owner _ _ _ => owner = txn
  | finished owner _ => owner = txn
  | _ => false

def ends (txn : TxnId) : Activity σ → Bool
  | finished owner _ => owner = txn
  | _ => false

/-- Whether a callback that runs from here on runs for a mere notification. -/
def noticeAfter (notice : Bool) : Activity σ → Bool
  | notified _ _ => true
  | reacting _ _ => false
  | _ => notice

private theorem ends_of_not_concerns {activity : Activity σ} {txn : TxnId}
    (aside : activity.concerns txn = false) : activity.ends txn = false := by
  cases activity with
  | finished owner id => exact aside
  | allocated | recycled | notified | reacting | moved | called | scheduled => rfl

end Activity

def firingsFrom {σ : Type} (txn : TxnId) : Bool → List (Activity σ) → List Firing
  | _, [] => []
  | notice, .called context :: rest =>
      if context.record.uid = txn then ⟨context.phase, notice⟩ :: firingsFrom txn notice rest
      else firingsFrom txn notice rest
  | notice, activity :: rest => firingsFrom txn (activity.noticeAfter notice) rest

def firingsOf {σ : Type} (txn : TxnId) (journal : List (Activity σ)) : List Firing :=
  firingsFrom txn false journal

def Waited {σ : Type} (txn : TxnId) (journal : List (Activity σ)) : Prop :=
  ∃ source trigger, .moved txn source trigger .waitAck ∈ journal

/-- What was done until a transaction came to its end. -/
def lifeOf {σ : Type} (txn : TxnId) (journal : List (Activity σ)) : List (Activity σ) :=
  journal.takeWhile (fun activity => !activity.ends txn)

section

variable {σ : Type} {txn : TxnId} {journal more : List (Activity σ)}

private theorem firingsFrom_append (notice : Bool) :
    firingsFrom txn notice (journal ++ more) =
      firingsFrom txn notice journal ++
        firingsFrom txn (journal.foldl Activity.noticeAfter notice) more := by
  induction journal generalizing notice with
  | nil => rfl
  | cons activity rest ih =>
      cases activity with
      | called context =>
          simp only [List.cons_append, firingsFrom, List.foldl_cons, Activity.noticeAfter, ih]
          split <;> rfl
      | allocated | recycled | notified | reacting | moved | scheduled | finished => exact ih _

private theorem firingsFrom_of_aside (aside : ∀ activity ∈ more, activity.concerns txn = false)
    (notice : Bool) : firingsFrom txn notice more = [] := by
  induction more generalizing notice with
  | nil => rfl
  | cons activity rest ih =>
      have later := ih (fun activity member => aside activity (List.mem_cons_of_mem _ member))
      cases activity with
      | called context =>
          have other : ¬ context.record.uid = txn := by
            simpa [Activity.concerns] using aside _ List.mem_cons_self
          simp only [firingsFrom, if_neg other, later]
      | allocated | recycled | notified | reacting | moved | scheduled | finished =>
          exact later _

private theorem firingsFrom_called {calls : List (Context σ)}
    (own : ∀ context ∈ calls, context.record.uid = txn) (notice : Bool) :
    firingsFrom txn notice (calls.map .called) =
      firingsFor notice (calls.map Context.phase) := by
  induction calls with
  | nil => rfl
  | cons context rest ih =>
      have later := ih (fun context member => own context (List.mem_cons_of_mem _ member))
      simp only [List.map_cons, firingsFrom, own context List.mem_cons_self, if_true, later]
      rfl

end

namespace Dispatcher

variable {σ : Type} {bindings : Nat} {dispatcher : Dispatcher σ} {txn owner : TxnId}
  {bound : Bound σ} {state : State} {journal more : List (Activity σ)}

/-! ### A life -/

/-- What was done to a transaction that has not come to its end, by the state that its machine
is in. -/
structure Lives (txn : TxnId) (state : State) (journal : List (Activity σ)) : Prop where
  stage : Stage state (firingsOf txn journal)
  unended : ∀ activity ∈ journal, activity.ends txn = false
  waited : Waited txn journal ↔ state = .waitAck

def Ended (txn : TxnId) (journal : List (Activity σ)) : Prop :=
  ∃ life id rest, journal = life ++ .finished txn id :: rest ∧
    (∀ activity ∈ life, activity.ends txn = false) ∧
      Disciplined (firingsOf txn life) (Waited txn life)

private theorem waited_append_iff :
    Waited txn (journal ++ more) ↔ Waited txn journal ∨ Waited txn more := by
  simp only [Waited, List.mem_append, exists_or]

private theorem Lives.aside (lives : Lives txn state journal)
    (aside : ∀ activity ∈ more, activity.concerns txn = false) :
    Lives txn state (journal ++ more) := by
  refine ⟨?_, ?_, ?_⟩
  · rw [firingsOf, firingsFrom_append, firingsFrom_of_aside aside, List.append_nil]
    exact lives.stage
  · intro activity member
    rcases List.mem_append.mp member with old | new
    · exact lives.unended activity old
    · exact Activity.ends_of_not_concerns (aside activity new)
  · rw [waited_append_iff, ← lives.waited, or_iff_left]
    rintro ⟨source, trigger, member⟩
    simpa [Activity.concerns] using aside _ member

private theorem Ended.append (ended : Ended txn journal) (more : List (Activity σ)) :
    Ended txn (journal ++ more) := by
  obtain ⟨life, id, rest, rfl, unended, disciplined⟩ := ended
  exact ⟨life, id, rest ++ more, by rw [List.append_assoc]; rfl, unended, disciplined⟩

private theorem Ended.disciplined (ended : Ended txn journal) :
    Disciplined (firingsOf txn (lifeOf txn journal)) (Waited txn (lifeOf txn journal)) := by
  obtain ⟨life, id, rest, rfl, unended, disciplined⟩ := ended
  have whole : lifeOf txn (life ++ .finished txn id :: rest) = life := by
    rw [lifeOf, List.takeWhile_append_of_pos (fun activity member => by
      rw [unended activity member]; rfl)]
    simp [Activity.ends]
  rw [whole]
  exact disciplined

/-! ### Reactions -/

private theorem not_concerns_of_mem_pick (dispatcher : Dispatcher σ) (owner : TxnId) :
    ∀ activity ∈ (dispatcher.pick owner).journal, activity.concerns txn = false := by
  intro activity member
  unfold pick at member
  split at member <;> rw [List.mem_singleton.mp member] <;> rfl

private theorem not_waited_advanceMachine (event : Phase) (next : State) (fired : List Phase) :
    ¬ Waited txn (dispatcher.advanceMachine owner bound event next fired).journal := by
  rintro ⟨source, trigger, member⟩
  rcases mem_journal_advanceMachine member with ⟨context, same, -⟩ | ⟨request, same⟩ <;>
    cases same

private theorem ends_of_mem_advanceMachine {event : Phase} {next : State} {fired : List Phase}
    {activity : Activity σ}
    (member : activity ∈ (dispatcher.advanceMachine owner bound event next fired).journal) :
    activity.ends txn = false := by
  rcases mem_journal_advanceMachine member with ⟨context, rfl, -⟩ | ⟨request, rfl⟩ <;> rfl

variable [Inhabited σ]

private theorem not_concerns_of_mem_advanceMachine (sound : Sound bindings dispatcher)
    (found : dispatcher.bound? owner = some bound) (different : owner ≠ txn) {event : Phase}
    {next : State} {fired : List Phase} {activity : Activity σ}
    (member : activity ∈ (dispatcher.advanceMachine owner bound event next fired).journal) :
    activity.concerns txn = false := by
  rcases mem_journal_advanceMachine member with ⟨context, rfl, own⟩ | ⟨request, rfl⟩
  · simpa [Activity.concerns, own, sound.uid_of_bound? found] using different
  · rfl

private theorem not_concerns_of_mem_react (sound : Sound bindings dispatcher) (event : Phase)
    (different : owner ≠ txn) :
    ∀ activity ∈ (dispatcher.react event owner).journal, activity.concerns txn = false := by
  have reaction := dispatcher.react_reaction event owner
  generalize dispatcher.react event owner = outcome at reaction ⊢
  intro activity member
  cases reaction with
  | unbound absent => cases member
  | notified bound found early =>
      rcases List.mem_cons.mp member with rfl | member
      · rfl
      · exact not_concerns_of_mem_advanceMachine sound found different member
  | refused bound found trigger given stuck =>
      rw [List.mem_singleton.mp member]
      rfl
  | moved bound found trigger given move step busy =>
      simp only [List.mem_cons] at member
      rcases member with rfl | rfl | member
      · rfl
      · simpa [Activity.concerns] using different
      · exact not_concerns_of_mem_advanceMachine sound found different member
  | finished bound found trigger given move step finishes =>
      simp only [List.mem_append, List.mem_cons, List.not_mem_nil, or_false] at member
      rcases member with (rfl | rfl | member) | rfl
      · rfl
      · simpa [Activity.concerns] using different
      · exact not_concerns_of_mem_advanceMachine sound found different member
      · simpa [Activity.concerns] using different

private theorem firingsFrom_advanceMachine (sound : Sound bindings dispatcher)
    (wired : Wired CallbackTable.Registered dispatcher)
    (found : dispatcher.bound? txn = some bound) (event : Phase) (next : State)
    {fired : List Phase} (slots : ∀ phase ∈ fired, phase.slot?.isSome = true) (notice : Bool) :
    firingsFrom txn notice (dispatcher.advanceMachine txn bound event next fired).journal =
      firingsFor notice fired := by
  rw [journal_advanceMachine _ _ _ _ _ _ sound.settled, firingsFrom_append,
    firingsFrom_called, firingsFrom_of_aside, List.append_nil]
  · exact congrArg _ ((wired.callbacks_of_bound? found).map_phase_calls slots _)
  · intro activity member
    obtain ⟨request, -, rfl⟩ := List.mem_map.mp member
    rfl
  · intro context called
    rw [CallbackTable.record_of_mem_calls called]
    exact sound.uid_of_bound? found

private theorem Lives.moved (sound : Sound bindings dispatcher)
    (wired : Wired CallbackTable.Registered dispatcher)
    (found : dispatcher.bound? txn = some bound) (lives : Lives txn bound.handle.state journal)
    {trigger : Phase} {move : Move} (step : bound.handle.state.step trigger = some move)
    (moved : more = .reacting txn trigger :: .moved txn bound.handle.state trigger move.next ::
      (dispatcher.advanceMachine txn bound trigger move.next move.fired).journal) :
    firingsOf txn (journal ++ more) =
        firingsOf txn journal ++ firingsFor false move.fired ∧
      (∀ activity ∈ journal ++ more, activity.ends txn = false) ∧
      (Waited txn (journal ++ more) ↔
        bound.handle.state = .waitAck ∨ move.next = .waitAck) := by
  subst moved
  refine ⟨?_, ?_, ?_⟩
  · rw [firingsOf, firingsFrom_append]
    exact congrArg _ (firingsFrom_advanceMachine sound wired found _ _
      (State.slot?_of_fired step) false)
  · intro activity member
    simp only [List.mem_append, List.mem_cons] at member
    rcases member with old | rfl | rfl | new
    · exact lives.unended activity old
    · rfl
    · rfl
    · exact ends_of_mem_advanceMachine new
  · have reacts : ¬ Waited txn ([.reacting txn trigger] : List (Activity σ)) := by simp [Waited]
    have moves : Waited txn ([.moved txn bound.handle.state trigger move.next] :
        List (Activity σ)) ↔ move.next = .waitAck := by simp [Waited, eq_comm]
    rw [List.append_cons, List.append_cons, waited_append_iff, waited_append_iff,
      waited_append_iff, moves, or_iff_left (not_waited_advanceMachine _ _ _),
      or_iff_left reacts, lives.waited]

private theorem Lives.react (sound : Sound bindings dispatcher)
    (wired : Wired CallbackTable.Registered dispatcher)
    (found : dispatcher.bound? txn = some bound) (lives : Lives txn bound.handle.state journal)
    (event : Phase) :
    (∃ after, (dispatcher.react event txn).dispatcher.bound? txn = some after ∧
        Lives txn after.handle.state (journal ++ (dispatcher.react event txn).journal)) ∨
      Ended txn (journal ++ (dispatcher.react event txn).journal) := by
  have reaction := dispatcher.react_reaction event txn
  generalize dispatcher.react event txn = outcome at reaction ⊢
  cases reaction with
  | unbound absent =>
      rw [absent] at found
      cases found
  | notified held same silent =>
      rw [found, Option.some.injEq] at same
      subst same
      have early : event.isEarly = true := by
        rcases (Handle.trigger?_eq_none_iff.mp silent).1 with rfl | rfl <;> rfl
      have slots : ∀ phase ∈ [event], phase.slot?.isSome = true := by
        intro phase member
        rw [List.mem_singleton.mp member]
        revert early
        cases event <;> decide
      refine .inl ⟨_, bound?_advanceMachine_self found _ _ _, ?_, ?_, ?_⟩
      · rw [firingsOf, firingsFrom_append, firingsFrom,
          firingsFrom_advanceMachine sound wired found _ _ slots]
        · exact lives.stage.notify early
        · rintro context ⟨⟩
      · intro activity member
        simp only [List.mem_append, List.mem_cons] at member
        rcases member with old | rfl | new
        · exact lives.unended activity old
        · rfl
        · exact ends_of_mem_advanceMachine new
      · rw [List.append_cons, waited_append_iff, waited_append_iff,
          or_iff_left (not_waited_advanceMachine _ _ _), or_iff_left (by simp [Waited])]
        exact lives.waited
  | refused held same trigger given stuck =>
      rw [sound.ensureScratch_eq same]
      refine .inl ⟨bound, found, lives.aside (fun activity member => ?_)⟩
      rw [List.mem_singleton.mp member]
      rfl
  | moved held same trigger given move step busy =>
      rw [found, Option.some.injEq] at same
      subst same
      obtain ⟨fired, unended, waited⟩ := lives.moved sound wired found step rfl
      refine .inl ⟨_, bound?_advanceMachine_self found _ _ _, ?_, unended, ?_⟩
      · rw [fired]
        exact lives.stage.advance step busy
      · -- a machine that waits for an acknowledgment can only finish
        have free : bound.handle.state ≠ .waitAck := by
          intro waiting
          rw [waiting, State.step_waitAck] at step
          split at step <;> cases step
          exact busy rfl
        rw [waited, or_iff_right free]
        rfl
  | finished held same trigger given move step finishes =>
      rw [found, Option.some.injEq] at same
      subst same
      obtain ⟨fired, unended, waited⟩ := lives.moved sound wired found step rfl
      refine .inr ⟨_, bound.id, [], (List.append_assoc _ _ _).symm, unended, ?_⟩
      rw [fired, propext waited, finishes, or_iff_left (by decide)]
      exact lives.stage.disciplined step finishes

/-! ### Runs -/

/-- A dispatcher with a callback on every slot, and what it did since a transaction was bound. -/
structure Serves (txn : TxnId) (journal : List (Activity σ)) (dispatcher : Dispatcher σ) :
    Prop where
  sound : ∃ bindings, Sound bindings dispatcher
  wired : Wired CallbackTable.Registered dispatcher
  life : (∃ bound, dispatcher.bound? txn = some bound ∧
    Lives txn bound.handle.state journal) ∨ Ended txn journal

namespace Serves

private theorem react (serves : Serves txn journal dispatcher) (event : Phase) (owner : TxnId) :
    Serves txn (journal ++ (dispatcher.react event owner).journal)
      (dispatcher.react event owner).dispatcher := by
  obtain ⟨bindings, sound⟩ := serves.sound
  refine ⟨⟨bindings, sound.react event owner⟩, serves.wired.react event owner, ?_⟩
  rcases serves.life with ⟨bound, found, lives⟩ | ended
  · by_cases different : owner ≠ txn
    · refine .inl ⟨bound, ?_, lives.aside (not_concerns_of_mem_react sound event different)⟩
      rw [bound?_react_of_ne sound event different.symm]
      exact found
    · obtain rfl : owner = txn := not_not.mp different
      exact lives.react sound serves.wired found event
  · exact .inr (ended.append _)

private theorem bindRecord (serves : Serves txn journal dispatcher) (record : Transaction)
    (isSnoop : Bool) :
    Serves txn (journal ++ (dispatcher.bindRecord record isSnoop).journal)
      (dispatcher.bindRecord record isSnoop).dispatcher := by
  obtain ⟨bindings, sound⟩ := serves.sound
  refine ⟨⟨_, sound.bindRecord record isSnoop⟩, serves.wired.bindRecord record isSnoop, ?_⟩
  rcases serves.life with ⟨bound, found, lives⟩ | ended
  · have aside : ∀ activity ∈ (dispatcher.bindRecord record isSnoop).journal,
        activity.concerns txn = false := by
      unfold Dispatcher.bindRecord
      split
      · intro activity member
        cases member
      · exact not_concerns_of_mem_pick dispatcher record.uid
    by_cases different : txn ≠ record.uid
    · refine .inl ⟨bound, ?_, lives.aside aside⟩
      rw [bound?_bindRecord_of_ne sound record isSnoop different]
      exact found
    · obtain rfl : txn = record.uid := not_not.mp different
      exact .inl ⟨_, bound?_bindRecord_of_bound found isSnoop, lives.aside aside⟩
  · exact .inr (ended.append _)

private theorem apart (serves : Serves txn journal dispatcher)
    (delayed clocked now snoops finished) :
    Serves txn journal { dispatcher with delayed, clocked, now, snoops, finished } := by
  obtain ⟨bindings, sound⟩ := serves.sound
  exact ⟨⟨bindings, { sound with }⟩, { serves.wired with }, serves.life⟩

private theorem kept (txn : TxnId) :
    Kept (fun journal (dispatcher : Dispatcher σ) => Serves txn journal dispatcher) where
  agenda := fun delayed clocked now serves => serves.apart delayed clocked now _ _
  react := fun event owner serves => serves.react event owner
  numbered := fun snoops serves => serves.apart _ _ _ snoops _
  bindRecord := fun record isSnoop serves => serves.bindRecord record isSnoop
  collected := fun finished serves => serves.apart _ _ _ _ finished

end Serves

/-- With a callback on every slot and after any run of calls: whatever calls follow the binding
of a transaction, the callbacks that run for it until it comes to its end run in order. -/
theorem disciplined_lifeOf (config : EngineConfig) {wiring : HandleId → CallbackTable σ}
    (registered : ∀ id, (wiring id).Registered) {earlier : List Operation}
    (reached : (new config wiring).performAll earlier = dispatcher)
    (record : Option Transaction) (isSnoop : Bool)
    (inactive : dispatcher.isActive (dispatcher.identity record) = false)
    (later : List Operation) {journal : List (Activity σ)}
    (done : (dispatcher.bind record isSnoop).dispatcher.journalAll later = journal)
    {id : HandleId} (ended : .finished (dispatcher.identity record) id ∈ journal) :
    Disciplined
      (firingsOf (dispatcher.identity record) (lifeOf (dispatcher.identity record) journal))
      (Waited (dispatcher.identity record) (lifeOf (dispatcher.identity record) journal)) := by
  have sound := (sound_new config wiring).performAll earlier
  have wired : Wired CallbackTable.Registered ((new config wiring).performAll earlier) :=
    (Wired.new config registered).performAll earlier
  rw [reached] at sound wired
  obtain ⟨bound, found, idle, -⟩ := bound?_bind_self sound record isSnoop inactive
  have begins : Serves (dispatcher.identity record) []
      (dispatcher.bind record isSnoop).dispatcher := by
    refine ⟨⟨_, sound.bind record isSnoop⟩, wired.perform (.bind record isSnoop),
      .inl ⟨bound, found, ?_⟩⟩
    rw [idle]
    refine ⟨.new, ?_, ?_⟩
    · intro activity member
      cases member
    · simp [Waited]
  have serves := (Serves.kept (dispatcher.identity record)).performAll begins later
  rw [List.nil_append, done] at serves
  rcases serves.life with ⟨bound, -, lives⟩ | finished
  · have unended := lives.unended _ ended
    simp [Activity.ends] at unended
  · exact finished.disciplined

def watching : Dispatcher Unit :=
  new ⟨8, true, .request⟩ (fun _ => ⟨fun _ => some Context.unchanged⟩)

/-- A write in two beats with an early signal ahead, which the delay queue and a clock edge
bring to its end, an acknowledgment included. -/
def acknowledgedWrite : List (Activity Unit) :=
  (watching.bind (some (.plain ⟨0⟩ .write)) false).dispatcher.journalAll
    [.react .writeReady ⟨0⟩, .react .beginPartialRequest ⟨0⟩, .react .endPartialRequest ⟨0⟩,
      .react .beginRequest ⟨0⟩, .react .beginResponse ⟨0⟩,
      .schedule ⟨.endResponse, ⟨0⟩, .after 2⟩, .schedule ⟨.acknowledge, ⟨0⟩, .cycles 0⟩,
      .advanceTo 3 1, .clockEdge]

theorem disciplined_lifeOf_acknowledgedWrite :
    slotsOf (firingsOf ⟨0⟩ (lifeOf ⟨0⟩ acknowledgedWrite)) =
        [.writeReady, .requestPhaseBegin, .beginPartialRequest, .endPartialRequest,
          .beginRequest, .responsePhaseBegin, .beginResponse, .endResponse, .acknowledge] ∧
      Disciplined (firingsOf ⟨0⟩ (lifeOf ⟨0⟩ acknowledgedWrite))
        (Waited ⟨0⟩ (lifeOf ⟨0⟩ acknowledgedWrite)) := by
  refine ⟨rfl, ?_⟩
  have registered : ∀ id, (watching.wiring id).Registered := fun _ _ => rfl
  have reached : (new ⟨8, true, .request⟩ watching.wiring).performAll [] = watching := rfl
  have last : acknowledgedWrite.getLast? = some (.finished ⟨0⟩ 0) := rfl
  exact disciplined_lifeOf ⟨8, true, .request⟩ registered reached (some (.plain ⟨0⟩ .write)) false
    rfl _ rfl (List.mem_of_getLast? last)

end Dispatcher

end Handshake
