import Handshake.Proofs.Engine.Chronicle
import Handshake.Proofs.Engine.Refusal
import Handshake.Proofs.Replay.Partition
set_option autoImplicit false

/-! The times and the counts that completions tell. A replay gathers them on handles that are
used again and again, in scratch values, and from a clock that moves between events; yet they
are those of the transaction's own events in the trace. -/

namespace Handshake

def State.isAnswered : State → Bool
  | waitForResponse | partialResponse | readIdle | response | waitAck => true
  | idle | writeAnnounced | partialRequest | writeIdle | request => false

private theorem State.isAnswered_of_step {state : State} {trigger : Phase} {move : Move}
    (step : state.step trigger = some move) (busy : move.next ≠ .idle) :
    move.next.isAnswered = (state.isAnswered || state = .request) ∧
      (state = .request → move.next ≠ .request) := by
  revert busy
  cases state <;> cases trigger <;> cases step <;> decide

private theorem State.isAnswered_of_last {state : State} {trigger : Phase} {move : Move}
    (step : state.step trigger = some move)
    (last : trigger = .acknowledge ∨ trigger = .endResponse ∨ trigger = .endResponseNoAck) :
    state.isAnswered = true := by
  cases answered : state.isAnswered with
  | true => rfl
  | false => rcases last with rfl | rfl | rfl <;> cases state <;> cases answered <;> cases step

namespace Replay

def endsBeat (phase : Phase) : Bool :=
  phase = .endPartialRequest || phase = .endPartialResponse

private theorem beatsEnded_eq (phase : Phase) : beatsEnded phase = (endsBeat phase).toNat := by
  cases phase <;> rfl

variable {engine : EngineConfig} {dispatcher : Dispatcher Timeline} {txn : TxnId}
  {bound : Dispatcher.Bound Timeline}

/-! ### One reaction -/

private theorem beatsEnded_of_trigger? {handle : Handle Timeline} {config : EngineConfig}
    {event trigger : Phase} (given : handle.trigger? config event = some trigger) :
    beatsEnded trigger = beatsEnded event := by
  cases event with
  | endResponse =>
      simp only [Handle.trigger?] at given
      split at given <;> cases given <;> rfl
  | writeValid | writeReady =>
      simp only [Handle.trigger?] at given
      split at given <;> cases given
      rfl
  | _ =>
      cases given
      rfl

/-- What an event makes of a transaction that stays active. -/
structure Onward (now : Time) (event : Phase) (before after : Dispatcher.Bound Timeline) :
    Prop where
  start : after.handle.start = before.handle.start
  beats : after.handle.beats = before.handle.beats + (endsBeat event).toNat
  scratch : after.scratch =
    if before.handle.state = .request ∧ after.handle.state ≠ .request then ⟨some now⟩
    else before.scratch
  answered : after.handle.state.isAnswered = (before.handle.state.isAnswered ||
    decide (before.handle.state = .request ∧ after.handle.state ≠ .request))

private theorem Calm.onward (calm : Calm engine dispatcher)
    (found : dispatcher.bound? txn = some bound)
    {event : Phase} {after : Dispatcher.Bound Timeline}
    (stays : (dispatcher.react event txn).dispatcher.bound? txn = some after)
    (taken : (dispatcher.react event txn).answer = .ok ()) :
    Onward dispatcher.now event bound after := by
  have reaction := dispatcher.react_reaction event txn
  generalize dispatcher.react event txn = outcome at reaction stays taken
  cases reaction with
  | unbound absent => cases taken
  | refused other same trigger given stuck => cases taken
  | notified other same early =>
      rw [found, Option.some.injEq] at same
      subst same
      have unset := (quiet_of_trigger?_eq_none early true).2.2
      have silent : beatsEnded event = 0 := by
        rcases (Handle.trigger?_eq_none_iff.mp early).1 with rfl | rfl <;> rfl
      have run : dispatcher.runOf bound event [event] =
          ⟨dispatcher.contextOf bound event, [], []⟩ := by
        rw [calm.runOf_eq found]
        simp [CallbackTable.run, unset]
      rw [Dispatcher.bound?_advanceMachine_self found, Option.some.injEq] at stays
      subst stays
      refine ⟨rfl, ?_, ?_, ?_⟩
      · simp only [Dispatcher.handleAfter, run, ← beatsEnded_eq, silent]
        rfl
      · simp [Dispatcher.handleAfter, run, Dispatcher.contextOf]
      · simp [Dispatcher.handleAfter]
  | moved other same trigger given move step busy =>
      rw [found, Option.some.injEq] at same
      subst same
      obtain ⟨answered, leaves⟩ := State.isAnswered_of_step step busy
      rw [Dispatcher.bound?_advanceMachine_self found, Option.some.injEq] at stays
      subst stays
      refine ⟨rfl, ?_, ?_, ?_⟩
      · rw [← beatsEnded_eq, ← beatsEnded_of_trigger? given]
        simp only [Dispatcher.handleAfter, calm.runOf_eq found, beats_of_step step]
        rfl
      · simp only [calm.runOf_eq found, scratch_of_step step, Dispatcher.handleAfter,
          and_iff_left_of_imp leaves]
        rfl
      · simp only [Dispatcher.handleAfter, answered, and_iff_left_of_imp leaves]
  | finished other same trigger given move step finishes =>
      rw [Dispatcher.bound?_retire_self] at stays
      cases stays

theorem Calm.completion_eq (calm : Calm engine dispatcher)
    (found : dispatcher.bound? txn = some bound) {event : Phase} {completion : Completion}
    (told : completion ∈ completionsOf engine.ack (dispatcher.react event txn).journal) :
    completion = ⟨txn, bound.handle.beats + 1, bound.handle.start,
        bound.scratch.responseBegan, dispatcher.now⟩ ∧
      bound.handle.state.isAnswered = true := by
  obtain ⟨bindings, sound⟩ := calm.sound
  have own := sound.uid_of_bound? found
  have byStep : ∀ {trigger : Phase} {move : Move}, bound.handle.state.step trigger = some move →
      completion ∈ completionsOf engine.ack
        (dispatcher.advanceMachine txn bound trigger move.next move.fired).journal →
      completion = ⟨txn, bound.handle.beats + 1, bound.handle.start,
          bound.scratch.responseBegan, dispatcher.now⟩ ∧
        bound.handle.state.isAnswered = true := by
    intro trigger move step told
    rw [(calm.advanceMachine found _ _ _).2.2, completionsOf_called, calm.runOf_eq found,
      completion_of_step step] at told
    split at told
    · rename_i ends
      refine ⟨?_, State.isAnswered_of_last step (ends.imp id And.left)⟩
      rw [List.mem_singleton.mp told]
      simp only [Dispatcher.contextOf, own]
    · cases told
  have reaction := dispatcher.react_reaction event txn
  generalize dispatcher.react event txn = outcome at reaction told
  cases reaction with
  | unbound absent => cases told
  | refused other same trigger given stuck => cases told
  | notified other same early =>
      rw [found, Option.some.injEq] at same
      subst same
      have unset := (quiet_of_trigger?_eq_none early true).2.2
      have silent : completionsOf engine.ack (dispatcher.advanceMachine txn bound event
          bound.handle.state [event]).journal = [] := by
        rw [(calm.advanceMachine found _ _ _).2.2, completionsOf_called, calm.runOf_eq found]
        simp [CallbackTable.run, unset]
      simp only [completionsOf, List.filterMap_cons, Activity.completion?] at silent told
      rw [silent] at told
      cases told
  | moved other same trigger given move step busy =>
      rw [found, Option.some.injEq] at same
      subst same
      exact byStep step told
  | finished other same trigger given move step finishes =>
      rw [found, Option.some.injEq] at same
      subst same
      refine byStep step ?_
      simpa only [completionsOf, List.cons_append, List.filterMap_cons, List.filterMap_append,
        List.filterMap_nil, Activity.completion?, List.append_nil] using told

private theorem state?_eq {bindings : Nat} (sound : dispatcher.Sound bindings) (txn : TxnId) :
    dispatcher.state? txn = (dispatcher.bound? txn).map (fun bound => bound.handle.state) := by
  cases found : dispatcher.bound? txn with
  | none =>
      have inactive := sound.inactive_of_bound?_eq_none found
      simp only [Dispatcher.state?, Dispatcher.handle?, inactive]
      rfl
  | some bound =>
      rw [Dispatcher.state?, Dispatcher.handle?_of_bound? found]
      rfl

/-! ### What a handle has gathered -/

def leaves (txn : TxnId) (before after : Dispatcher Timeline) : Bool :=
  before.state? txn = some .request && after.state? txn ≠ some .request

def leavings (txn : TxnId) : Replayer → List Trace.Event → List Trace.Event
  | _, [] => []
  | replayer, event :: rest =>
      (if leaves txn replayer.dispatcher (replayer.step event).1.dispatcher then [event] else []) ++
        leavings txn (replayer.step event).1 rest

private theorem leaves_eq {after : Dispatcher Timeline} {afterwards : Dispatcher.Bound Timeline}
    {bindings later : Nat} (sound : dispatcher.Sound bindings) (soundAfter : after.Sound later)
    (found : dispatcher.bound? txn = some bound) (stays : after.bound? txn = some afterwards) :
    leaves txn dispatcher after =
      decide (bound.handle.state = .request ∧ afterwards.handle.state ≠ .request) := by
  rw [leaves, state?_eq sound, state?_eq soundAfter, found, stays]
  simp

private theorem leaves_eq_false {after : Dispatcher Timeline} {bindings later : Nat}
    (sound : dispatcher.Sound bindings) (soundAfter : after.Sound later)
    (same : after.bound? txn = dispatcher.bound? txn) : leaves txn dispatcher after = false := by
  rw [leaves, state?_eq sound, state?_eq soundAfter, same]
  cases dispatcher.bound? txn <;> simp

def endsBeatOf (txn : TxnId) (event : Trace.Event) : Bool :=
  event.record.uid = txn && endsBeat event.phase

/-- What an active transaction's handle and scratch value hold after some events, of which some
took its machine out of the request state. -/
structure InTime (txn : TxnId) (declaring seen left : List Trace.Event) (now : Time)
    (bound : Dispatcher.Bound Timeline) : Prop where
  started : ∃ first ∈ declaring, first.record.uid = txn ∧ bound.handle.start = first.time
  beats : bound.handle.beats = seen.countP (endsBeatOf txn)
  began : bound.scratch.responseBegan.toList = left.map Trace.Event.time
  answered : bound.handle.state.isAnswered = bound.scratch.responseBegan.isSome
  past : bound.handle.start ≤ now
  ordered : ∀ began, bound.scratch.responseBegan = some began →
    bound.handle.start ≤ began ∧ began ≤ now

namespace InTime

variable {declaring seen left : List Trace.Event} {now : Time} {event : Trace.Event}
  {after : Dispatcher.Bound Timeline}

private theorem withNow (inTime : InTime txn declaring seen left now bound) {later : Time}
    (ahead : now ≤ later) : InTime txn declaring seen left later bound :=
  { inTime with
    past := Nat.le_trans inTime.past ahead
    ordered := fun began when =>
      ⟨(inTime.ordered began when).1, Nat.le_trans (inTime.ordered began when).2 ahead⟩ }

private theorem declared (inTime : InTime txn declaring seen left now bound)
    (more : List Trace.Event) :
    InTime txn (declaring ++ more) seen left now bound := by
  obtain ⟨first, member, own, start⟩ := inTime.started
  exact { inTime with started := ⟨first, List.mem_append_left _ member, own, start⟩ }

private theorem aside (inTime : InTime txn declaring seen left now bound)
    (silent : endsBeatOf txn event = false) :
    InTime txn declaring (seen ++ [event]) left now bound :=
  { inTime with
    beats := by
      rw [List.countP_append, inTime.beats, List.countP_singleton, silent]
      rfl }

private theorem onward (inTime : InTime txn declaring seen left now bound)
    (own : event.record.uid = txn) (present : event.time = now)
    (onward : Onward now event.phase bound after) :
    InTime txn declaring (seen ++ [event])
      (left ++ if bound.handle.state = .request ∧ after.handle.state ≠ .request then [event]
        else []) now after := by
  obtain ⟨start, beats, scratch, answered⟩ := onward
  have counted : after.handle.beats = (seen ++ [event]).countP (endsBeatOf txn) := by
    rw [beats, List.countP_append, inTime.beats, List.countP_singleton, endsBeatOf]
    cases endsBeat event.phase <;> simp [own]
  have started := inTime.started
  have past := inTime.past
  rw [← start] at started past
  by_cases leaves : bound.handle.state = .request ∧ after.handle.state ≠ .request
  · -- a machine leaves the request state once, so there was nothing to tell of before
    have unbegun : bound.scratch.responseBegan = none := by
      have pending := inTime.answered
      rw [leaves.1] at pending
      exact Option.isNone_iff_eq_none.mp (by rw [← Option.not_isSome, ← pending]; rfl)
    have first : left = [] := by
      have began := inTime.began
      rw [unbegun] at began
      exact List.map_eq_nil_iff.mp began.symm
    rw [if_pos leaves] at scratch ⊢
    rw [decide_eq_true leaves, Bool.or_true] at answered
    refine ⟨started, counted, ?_, ?_, past, ?_⟩
    · rw [scratch, first, ← present]
      rfl
    · rw [answered, scratch]
      rfl
    · intro began when
      rw [scratch] at when
      cases when
      exact ⟨past, Nat.le_refl now⟩
  · rw [if_neg leaves] at scratch ⊢
    rw [decide_eq_false leaves, Bool.or_false] at answered
    rw [List.append_nil]
    refine ⟨started, counted, ?_, ?_, past, ?_⟩
    · rw [scratch]
      exact inTime.began
    · rw [answered, scratch]
      exact inTime.answered
    · rw [scratch, start]
      exact inTime.ordered

end InTime

/-! ### All transactions -/

/-- A replayer that has come to the time of an event, shown it to the checker and bound its
transaction. -/
def Replayer.readied (replayer : Replayer) (event : Trace.Event) : Replayer :=
  ((replayer.at event.time).check event).declare event

theorem step_eq_feed_readied {replayer : Replayer} (calm : Calm engine replayer.dispatcher)
    (event : Trace.Event) : replayer.step event = (replayer.readied event).feed event :=
  step_eq calm event

/-- The state of a replay in which some events declared their transactions and some have been
processed. -/
structure Timed (engine : EngineConfig) (declaring seen : List Trace.Event)
    (left : TxnId → List Trace.Event) (dispatcher : Dispatcher Timeline) : Prop where
  calm : Calm engine dispatcher
  undeclared : ∀ txn, (∀ event ∈ declaring, event.record.uid ≠ txn) →
    dispatcher.bound? txn = none ∧ left txn = []
  inTime : ∀ txn bound, dispatcher.bound? txn = some bound →
    InTime txn declaring seen (left txn) dispatcher.now bound

namespace Timed

variable {declaring seen : List Trace.Event} {left : TxnId → List Trace.Event}
  {replayer : Replayer} {event : Trace.Event}

theorem new (engine : EngineConfig) (checker : CheckerConfig) :
    Timed engine [] [] (fun _ => []) (Replayer.new engine checker).dispatcher where
  calm := calm_new engine
  undeclared := fun _ _ => ⟨rfl, rfl⟩
  inTime := by
    intro txn bound found
    cases found

private theorem withNow (timed : Timed engine declaring seen left dispatcher) {now : Time}
    (ahead : dispatcher.now ≤ now) : Timed engine declaring seen left { dispatcher with now } where
  calm := timed.calm.withNow now
  undeclared := timed.undeclared
  inTime := fun txn bound found => (timed.inTime txn bound found).withNow ahead

private theorem declare (timed : Timed engine declaring seen left replayer.dispatcher)
    (fresh : event.declares = true → ∀ earlier ∈ seen, earlier.record.uid ≠ event.record.uid)
    (within : ∀ earlier ∈ declaring, earlier ∈ seen)
    (present : event.time = replayer.dispatcher.now) :
    Timed engine (declaring ++ if event.declares then [event] else []) seen left
        (replayer.declare event).dispatcher ∧
      (replayer.declare event).dispatcher.now = replayer.dispatcher.now := by
  obtain ⟨bindings, sound⟩ := timed.calm.sound
  unfold Replayer.declare
  split
  · rename_i declares
    obtain ⟨unbound, nothing⟩ := timed.undeclared event.record.uid
      (fun earlier member => fresh declares earlier (within earlier member))
    have inactive := sound.inactive_of_bound?_eq_none unbound
    obtain ⟨id, callbacks, bound⟩ := Dispatcher.bound?_bindRecord_of_inactive sound event.record
      event.record.snoopOnly inactive
    have still : (replayer.dispatcher.bindRecord event.record
        event.record.snoopOnly).dispatcher.now = replayer.dispatcher.now :=
      congrArg Agenda.now (replayer.dispatcher.agenda_bindRecord _ _)
    refine ⟨⟨timed.calm.bind _ _, ?_, ?_⟩, still⟩
    · intro txn undeclared
      have other : txn ≠ event.record.uid := fun same =>
        undeclared event (List.mem_append_right _ (List.mem_singleton_self event)) same.symm
      obtain ⟨unbound, nothing⟩ := timed.undeclared txn
        (fun earlier member => undeclared earlier (List.mem_append_left _ member))
      exact ⟨(Dispatcher.bound?_bindRecord_of_ne sound _ _ other).trans unbound, nothing⟩
    · intro txn held found
      simp only [Replayer.take, Dispatcher.bind] at found ⊢
      rw [still]
      by_cases own : txn = event.record.uid
      · subst own
        rw [bound, Option.some.injEq] at found
        subst found
        have unseen : seen.countP (endsBeatOf event.record.uid) = 0 := by
          rw [List.countP_eq_zero]
          intro earlier member ends
          simp only [endsBeatOf, Bool.and_eq_true, decide_eq_true_eq] at ends
          exact fresh declares earlier member ends.1
        refine ⟨⟨event, ?_, rfl, present.symm⟩, unseen.symm, ?_, rfl, Nat.le_refl _, ?_⟩
        · exact List.mem_append_right _ (List.mem_singleton_self event)
        · rw [nothing]
          rfl
        · intro began when
          cases when
      · rw [Dispatcher.bound?_bindRecord_of_ne sound _ _ own] at found
        exact (timed.inTime txn held found).declared [event]
  · rw [List.append_nil]
    exact ⟨timed, rfl⟩

private theorem feed (timed : Timed engine declaring seen left replayer.dispatcher)
    (present : event.time = replayer.dispatcher.now) (taken : (replayer.feed event).2 = none) :
    Timed engine declaring (seen ++ [event])
        (fun txn => left txn ++
          if leaves txn replayer.dispatcher (replayer.feed event).1.dispatcher then [event] else [])
        (replayer.feed event).1.dispatcher ∧
      (replayer.feed event).1.dispatcher.now = replayer.dispatcher.now := by
  obtain ⟨bindings, sound⟩ := timed.calm.sound
  rcases Ledger.feed_cases taken with ⟨point, same⟩ | ⟨answer, same⟩
  · -- the two time points are for the checker only
    have silent : ∀ txn, endsBeatOf txn event = false := by
      intro txn
      rcases point with point | point <;> simp [endsBeatOf, endsBeat, point]
    rw [same]
    simp only [leaves_eq_false sound sound rfl, Bool.false_eq_true, if_false, List.append_nil]
    exact ⟨⟨timed.calm, timed.undeclared, fun txn bound found =>
      (timed.inTime txn bound found).aside (silent txn)⟩, trivial⟩
  · rw [same]
    simp only [Replayer.take]
    obtain ⟨bound, found⟩ := Dispatcher.exists_bound?_of_react answer
    have calm := (timed.calm.accepted found answer).calm
    obtain ⟨later, soundAfter⟩ := calm.sound
    have still := (replayer.dispatcher.path_react event.phase event.record.uid).2
    have elsewhere : ∀ {txn : TxnId}, txn ≠ event.record.uid →
        (replayer.dispatcher.react event.phase event.record.uid).dispatcher.bound? txn =
            replayer.dispatcher.bound? txn ∧
          leaves txn replayer.dispatcher
            (replayer.dispatcher.react event.phase event.record.uid).dispatcher = false := by
      intro txn other
      have kept := Dispatcher.bound?_react_of_ne sound event.phase other
      exact ⟨kept, leaves_eq_false sound soundAfter kept⟩
    refine ⟨⟨calm, ?_, ?_⟩, still⟩
    · intro txn undeclared
      obtain ⟨unbound, nothing⟩ := timed.undeclared txn undeclared
      have other : txn ≠ event.record.uid := by
        rintro rfl
        rw [found] at unbound
        cases unbound
      obtain ⟨kept, stays⟩ := elsewhere other
      exact ⟨kept.trans unbound, by simp [nothing, stays]⟩
    · intro txn after stays
      rw [still]
      by_cases own : txn = event.record.uid
      · subst own
        have gathered := (timed.inTime _ bound found).onward rfl present
          (timed.calm.onward found stays answer)
        simp only [leaves_eq sound soundAfter found stays, decide_eq_true_eq]
        exact gathered
      · obtain ⟨kept, remains⟩ := elsewhere own
        rw [kept] at stays
        simp only [remains, Bool.false_eq_true, if_false, List.append_nil]
        refine (timed.inTime txn after stays).aside ?_
        simp [endsBeatOf, Ne.symm own]

theorem ready (timed : Timed engine (seen.filter Trace.Event.declares) seen left
      replayer.dispatcher)
    (fresh : event.declares = true → ∀ earlier ∈ seen, earlier.record.uid ≠ event.record.uid)
    (ahead : replayer.dispatcher.now ≤ event.time) :
    Timed engine ((seen ++ [event]).filter Trace.Event.declares) seen left
        (replayer.readied event).dispatcher ∧
      (replayer.readied event).dispatcher.now = event.time := by
  have reached : max replayer.dispatcher.now event.time = event.time := Nat.max_eq_right ahead
  have arrived : Timed engine (seen.filter Trace.Event.declares) seen left
      ((replayer.at event.time).check event).dispatcher := timed.withNow (Nat.le_max_left _ _)
  obtain ⟨declared, still⟩ := arrived.declare fresh
    (fun earlier member => (List.mem_filter.mp member).1) reached.symm
  have declaring : (seen ++ [event]).filter Trace.Event.declares =
      seen.filter Trace.Event.declares ++ if event.declares then [event] else [] := by
    rw [List.filter_append]
    cases declares : event.declares <;> simp [declares]
  rw [declaring]
  exact ⟨declared, still.trans reached⟩

private theorem leaves_readied (timed : Timed engine (seen.filter Trace.Event.declares) seen left
      replayer.dispatcher)
    (fresh : event.declares = true → ∀ earlier ∈ seen, earlier.record.uid ≠ event.record.uid)
    (txn : TxnId) (after : Dispatcher Timeline) :
    leaves txn (replayer.readied event).dispatcher after =
      leaves txn replayer.dispatcher after := by
  obtain ⟨bindings, sound⟩ := timed.calm.sound
  unfold Replayer.readied Replayer.declare
  split
  · rename_i declares
    have later : { replayer.dispatcher with
        now := max replayer.dispatcher.now event.time }.Sound bindings := { sound with }
    obtain ⟨unbound, -⟩ := timed.undeclared event.record.uid
      (fun earlier member => fresh declares earlier (List.mem_filter.mp member).1)
    have requests : ({ replayer.dispatcher with
        now := max replayer.dispatcher.now event.time }.bindRecord event.record
          event.record.snoopOnly).dispatcher.state? txn = some .request ↔
        replayer.dispatcher.state? txn = some .request := by
      rw [state?_eq (later.bindRecord event.record event.record.snoopOnly), state?_eq sound]
      by_cases own : txn = event.record.uid
      · subst own
        obtain ⟨id, callbacks, bound⟩ := Dispatcher.bound?_bindRecord_of_inactive later
          event.record event.record.snoopOnly (sound.inactive_of_bound?_eq_none unbound)
        rw [bound, unbound]
        simp
      · rw [Dispatcher.bound?_bindRecord_of_ne later _ _ own]
        exact Iff.rfl
    unfold leaves
    exact congrArg (· && _) (decide_eq_decide.mpr requests)
  · rfl

private theorem step (timed : Timed engine (seen.filter Trace.Event.declares) seen left
      replayer.dispatcher)
    (fresh : event.declares = true → ∀ earlier ∈ seen, earlier.record.uid ≠ event.record.uid)
    (ahead : replayer.dispatcher.now ≤ event.time) (taken : (replayer.step event).2 = none) :
    Timed engine ((seen ++ [event]).filter Trace.Event.declares) (seen ++ [event])
        (fun txn => left txn ++
          if leaves txn replayer.dispatcher (replayer.step event).1.dispatcher then [event] else [])
        (replayer.step event).1.dispatcher ∧
      (replayer.step event).1.dispatcher.now = event.time := by
  obtain ⟨declared, present⟩ := timed.ready fresh ahead
  rw [step_eq_feed_readied timed.calm] at taken ⊢
  obtain ⟨fed, still⟩ := declared.feed present.symm taken
  simp only [timed.leaves_readied fresh] at fed
  exact ⟨fed, still.trans present⟩

theorem processAll {events : List Trace.Event}
    (timed : Timed engine (seen.filter Trace.Event.declares) seen left replayer.dispatcher)
    (fresh : (seen ++ events).Pairwise (fun earlier later =>
      later.declares = true → earlier.record.uid ≠ later.record.uid))
    (times : events.Pairwise (fun earlier later => earlier.time ≤ later.time))
    (ahead : ∀ event ∈ events, replayer.dispatcher.now ≤ event.time)
    (ended : (Replay.processAll replayer events).stopped = none) :
    Timed engine ((seen ++ events).filter Trace.Event.declares) (seen ++ events)
        (fun txn => left txn ++ leavings txn replayer events)
        (Replay.processAll replayer events).replayer.dispatcher ∧
      ∀ time, replayer.dispatcher.now ≤ time → (∀ event ∈ events, event.time ≤ time) →
        (Replay.processAll replayer events).replayer.dispatcher.now ≤ time := by
  induction events generalizing seen left replayer with
  | nil =>
      simp only [leavings, List.append_nil]
      exact ⟨timed, fun time past _ => past⟩
  | cons first rest ih =>
      obtain ⟨taken, later, same⟩ := taken_of_processAll ended
      obtain ⟨fromFirst, times⟩ := List.pairwise_cons.mp times
      have freshHere : first.declares = true →
          ∀ earlier ∈ seen, earlier.record.uid ≠ first.record.uid := fun declares earlier member =>
        (List.pairwise_append.mp fresh).2.2 earlier member first List.mem_cons_self declares
      obtain ⟨next, present⟩ :=
        timed.step freshHere (ahead first List.mem_cons_self) taken
      rw [← present] at fromFirst
      rw [List.append_cons] at fresh ⊢
      rw [same]
      obtain ⟨reached, bounded⟩ := ih next fresh times fromFirst later
      simp only [List.append_assoc] at reached
      rw [List.append_assoc]
      refine ⟨reached, fun time past within => bounded time ?_ ?_⟩
      · rw [present]
        exact within first List.mem_cons_self
      · exact fun event member => within event (List.mem_cons_of_mem first member)

end Timed

end Replay

end Handshake
