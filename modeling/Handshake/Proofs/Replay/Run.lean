import Handshake.Proofs.Replay.Standing
import Handshake.Proofs.Trace
set_option autoImplicit false

/-! The run of a replay that goes well. As long as the checker finds nothing and the engine
takes every event, each event fits the account of those before it and every transaction
stands where its own phases led it. One event keeps both, and so does a whole run. -/

namespace Handshake.Replay

/-! ### What completions tell -/

def told (completions : List Completion) (txn : TxnId) : List Nat :=
  (completions.filter (fun completion => completion.txn = txn)).map Completion.beats

private theorem told_append (before after : List Completion) (txn : TxnId) :
    told (before ++ after) txn = told before txn ++ told after txn := by
  simp only [told, List.filter_append, List.map_append]

private theorem told_of_map_eq {completions : List Completion} {own : TxnId} {beats : Nat}
    {ends : Bool}
    (same : completions.map (fun completion => (completion.txn, completion.beats)) =
      if ends then [(own, beats)] else []) (txn : TxnId) :
    told completions txn = if own = txn then if ends then [beats] else [] else [] := by
  have pairs : told completions txn =
      ((if ends then [(own, beats)] else []).filter (fun pair => pair.1 = txn)).map Prod.snd := by
    rw [← same, List.filter_map, List.map_map]
    rfl
  rw [pairs]
  by_cases here : own = txn
  · cases ends <;> simp [here]
  · cases ends <;> simp [here]

/-! ### Loud phases -/

variable {engine : EngineConfig} {config : CheckerConfig} {records : TxnId → Transaction}
  {history : History} {replayer : Replayer} {event : Trace.Event}

private theorem exists_trigger? (handle : Handle Timeline) {phase : Phase}
    (loud : phase.isLoud = true) :
    ∃ trigger, handle.trigger? engine phase = some trigger ∧
      (trigger = phase ∨ (phase = .endResponse ∧ trigger = .endResponseNoAck)) := by
  cases phase with
  | endResponse =>
      by_cases owes : (engine.ack && !handle.isSnoop) = true
      · exact ⟨_, if_pos owes, .inr ⟨rfl, rfl⟩⟩
      · exact ⟨_, if_neg owes, .inl rfl⟩
  | requestPhaseBegin | writeValid | writeReady | responsePhaseBegin | endResponseNoAck =>
      cases loud
  | _ => exact ⟨_, rfl, .inl rfl⟩

private theorem feed_of_loud (replayer : Replayer) (loud : event.phase.isLoud = true) :
    replayer.feed event =
      (replayer.take (replayer.dispatcher.react event.phase event.record.uid),
        match (replayer.dispatcher.react event.phase event.record.uid).answer with
        | .ok () => none
        | .error error => some (.failed error)) := by
  unfold Replayer.feed
  split
  · rename_i begins
    rw [begins] at loud
    cases loud
  · rename_i begins
    rw [begins] at loud
    cases loud
  · rfl

private theorem accepted_of_feed (loud : event.phase.isLoud = true)
    (taken : (replayer.feed event).2 = none) :
    (replayer.dispatcher.react event.phase event.record.uid).answer = .ok () := by
  rw [feed_of_loud replayer loud] at taken
  cases answer : (replayer.dispatcher.react event.phase event.record.uid).answer with
  | ok => rfl
  | error error =>
      rw [answer] at taken
      cases taken

/-! ### Where all transactions stand -/

structure Standings (engine : EngineConfig) (history : History) (dispatcher : Dispatcher Timeline)
    (completions : List Completion) : Prop where
  calm : Calm engine dispatcher
  standing : ∀ txn,
    Standing (history.phasesOf txn) (progress? dispatcher txn) (told completions txn)

private theorem standings_new (engine : EngineConfig) (config : CheckerConfig) :
    Standings engine [] (Replayer.new engine config).dispatcher
      (Replayer.new engine config).completions where
  calm := calm_new engine
  standing := fun _ => .undeclared rfl

namespace Standings

private theorem withNow {dispatcher : Dispatcher Timeline} {completions : List Completion}
    (standings : Standings engine history dispatcher completions) (now : Time) :
    Standings engine history { dispatcher with now } completions where
  calm := standings.calm.withNow now
  standing := standings.standing

private theorem declare
    (standings : Standings engine history replayer.dispatcher replayer.completions)
    (fresh : event.declares = true → history.phasesOf event.record.uid = []) :
    Standings engine history (replayer.declare event).dispatcher
      (replayer.declare event).completions := by
  unfold Replayer.declare
  split
  · rename_i declares
    have silent : (replayer.take (replayer.dispatcher.bind (some event.record)
        event.record.snoopOnly)).completions = replayer.completions := by
      have nothing := completionsOf_bind replayer.dispatcher event.record event.record.snoopOnly
        replayer.dispatcher.config.ack
      rw [completionsOf] at nothing
      simp only [Replayer.take, nothing, List.append_nil]
    rw [silent]
    refine ⟨standings.calm.bind _ _, fun txn => ?_⟩
    have standing := standings.standing txn
    by_cases own : txn = event.record.uid
    · subst own
      have unmentioned := fresh declares
      simp only [Replayer.take, standings.calm.progress?_bind_self]
      rw [unmentioned] at standing ⊢
      cases progress : progress? replayer.dispatcher event.record.uid with
      | some reached =>
          rw [progress] at standing
          exact standing
      | none =>
          rw [progress] at standing
          cases told : told replayer.completions event.record.uid with
          | nil => exact .running rfl List.not_mem_nil
          | cons beats more =>
              rw [told] at standing
              cases standing with
              | complete answered => cases answered
    · simp only [Replayer.take, standings.calm.progress?_bind_of_ne _ _ own]
      exact standing
  · exact standings

private theorem feed (standings : Standings engine history replayer.dispatcher replayer.completions)
    (plain : ∀ reached,
      State.walk .idle (history.handshakesOf event.record.uid) = some reached →
        reached.isPlain = true)
    (loud : event.phase.isLoud = true) (taken : (replayer.feed event).2 = none) :
    Standings engine (history ++ [event.observation]) (replayer.feed event).1.dispatcher
        (replayer.feed event).1.completions ∧
      (event.phase.isHandshake = true → .endResponse ∉ history.phasesOf event.record.uid ∧
        ∃ state, State.walk .idle (history.handshakesOf event.record.uid) = some state ∧
          ∃ move, state.step event.phase = some move) := by
  have calm := standings.calm
  obtain ⟨bindings, sound⟩ := calm.sound
  have outer : event.phase ≠ .endResponseNoAck := by
    intro inner
    rw [inner] at loud
    cases loud
  have accepted := accepted_of_feed loud taken
  rw [feed_of_loud replayer loud]
  obtain ⟨bound, found⟩ := Dispatcher.exists_bound?_of_react accepted
  obtain ⟨trigger, given, arises⟩ := exists_trigger? bound.handle loud
  obtain ⟨move, step, after, progressed, completed⟩ := calm.react found given outer accepted
  have standing := standings.standing event.record.uid
  rw [progress?, found, Option.map_some] at standing
  obtain ⟨advanced, moves⟩ := standing.advance plain loud arises step
  refine ⟨⟨after, fun txn => ?_⟩,
    fun handshake => ⟨(moves handshake).1, _, (moves handshake).2⟩⟩
  have more : (replayer.take
      (replayer.dispatcher.react event.phase event.record.uid)).completions =
        replayer.completions ++ completionsOf engine.ack
          (replayer.dispatcher.react event.phase event.record.uid).journal := by
    rw [← calm.config]
    rfl
  have seen : (history ++ [event.observation]).phasesOf txn =
      history.phasesOf txn ++ if event.record.uid = txn then [event.phase] else [] :=
    History.phasesOf_append_singleton history event.observation txn
  rw [more, told_append, told_of_map_eq completed, seen]
  simp only [Replayer.take]
  by_cases own : event.record.uid = txn
  · subst own
    rw [progressed, if_pos rfl, if_pos rfl]
    exact advanced
  · rw [if_neg own, if_neg own, List.append_nil, List.append_nil, progress?,
      Dispatcher.bound?_react_of_ne sound event.phase (Ne.symm own)]
    exact standings.standing txn

end Standings

/-! ### One event -/

private theorem checker_feed (replayer : Replayer) (event : Trace.Event) :
    (replayer.feed event).1.checker = replayer.checker := by
  unfold Replayer.feed
  split <;> rfl

private theorem checker_declare (replayer : Replayer) (event : Trace.Event) :
    (replayer.declare event).checker = replayer.checker := by
  unfold Replayer.declare
  split <;> rfl

private theorem checker_step (taken : (replayer.step event).2 = none) :
    (replayer.step event).1.checker = replayer.checker.observe event.phase event.record := by
  unfold Replayer.step at taken ⊢
  generalize replayer.dispatcher.runUntil 0 event.time = arrival at taken ⊢
  obtain ⟨dispatcher, journal, answer⟩ := arrival
  cases answer with
  | error stop => cases taken
  | ok =>
      change ((((replayer.take ⟨dispatcher, journal, _⟩).check event).declare event).feed
        event).1.checker = _
      rw [checker_feed, checker_declare]
      rfl

def Replayer.at (replayer : Replayer) (time : Time) : Replayer :=
  { replayer with
    dispatcher := { replayer.dispatcher with now := max replayer.dispatcher.now time } }

theorem step_eq (calm : Calm engine replayer.dispatcher) (event : Trace.Event) :
    replayer.step event = (((replayer.at event.time).check event).declare event).feed event := by
  unfold Replayer.step
  rw [calm.runUntil 0 event.time]
  simp only [Replayer.take, List.filterMap_nil, List.append_nil]
  rfl

private theorem isLoud_of_breaches_eq_nil {checker : Checker} {phase : Phase} {record : Transaction}
    (clean : checker.breaches phase record = []) : phase.isLoud = true := by
  simp only [Checker.breaches, List.append_eq_nil_iff, Checker.bareBreaches] at clean
  have bare := clean.2
  split at bare
  · rename_i sided
    rw [Phase.isLoud, Phase.isHandshake, sided, Bool.true_or]
  · split at bare
    · rename_i same
      rw [same]
      rfl
    · cases bare

/-- A replay that has gone well so far. -/
structure Tracked (engine : EngineConfig) (config : CheckerConfig)
    (records : TxnId → Transaction) (history : History) (replayer : Replayer) : Prop where
  standings : Standings engine history replayer.dispatcher replayer.completions
  fitting : Checker.Fitting config records history
  once : history.Throughout History.LivesOnce

theorem tracked_new (engine : EngineConfig) (config : CheckerConfig)
    (records : TxnId → Transaction) : Tracked engine config records [] (.new engine config) where
  standings := standings_new engine config
  fitting := by
    intro before event after split
    simp at split
  once := by
    intro before event after split
    simp at split

namespace Tracked

private theorem step (tracked : Tracked engine config records history replayer)
    (known : History.Known records (history ++ [event.observation]))
    (clean : ((Checker.new config).observeAll history).breaches event.phase event.record = [])
    (fresh : event.declares = true → history.phasesOf event.record.uid = [])
    (taken : (replayer.step event).2 = none) :
    Tracked engine config records (history ++ [event.observation]) (replayer.step event).1 := by
  have own : records event.record.uid = event.record := known event.observation (by simp)
  have path : ∀ {courses}, Checker.Account config records history courses →
      State.walk .idle (history.handshakesOf event.record.uid) =
        some (courses event.record.uid).state := fun account => account.path _
  obtain ⟨courses, account⟩ := tracked.fitting.exists_account known.of_append
  have plain : ∀ reached,
      State.walk .idle (history.handshakesOf event.record.uid) = some reached →
        reached.isPlain = true := by
    intro reached walked
    rw [path account, Option.some.injEq] at walked
    rw [← walked]
    exact account.isPlain _
  rw [step_eq tracked.standings.calm event] at taken ⊢
  have checked : Standings engine history ((replayer.at event.time).check event).dispatcher
      ((replayer.at event.time).check event).completions := tracked.standings.withNow _
  obtain ⟨fed, moves⟩ := (checked.declare fresh).feed plain (isLoud_of_breaches_eq_nil clean) taken
  refine ⟨fed, History.throughout_append_singleton.mpr ⟨tracked.fitting, ?_⟩,
    History.throughout_append_singleton.mpr ⟨tracked.once, fun handshake => (moves handshake).1⟩⟩
  intro others standing
  refine standing.agrees.fits own clean (standing.isPlain _) (fun handshake => ?_)
  obtain ⟨-, state, walked, moved⟩ := moves handshake
  rw [path standing, Option.some.injEq] at walked
  subst walked
  exact moved

end Tracked

/-! ### The whole run -/

theorem processAll_cons_of_taken {rest : List Trace.Event}
    (taken : (replayer.step event).2 = none) :
    (processAll replayer (event :: rest)).stopped =
        (processAll (replayer.step event).1 rest).stopped ∧
      (processAll replayer (event :: rest)).replayer =
        (processAll (replayer.step event).1 rest).replayer := by
  cases stepped : replayer.step event with
  | mk after stopped =>
      rw [stepped] at taken
      simp only at taken
      subst taken
      simp only [processAll, stepped]
      exact ⟨trivial, trivial⟩

theorem processAll_cons_of_stopped {rest : List Trace.Event} {stop : Stop}
    (stopped : (replayer.step event).2 = some stop) :
    (processAll replayer (event :: rest)).stopped = some stop ∧
      (processAll replayer (event :: rest)).replayer.completions =
        (replayer.step event).1.completions := by
  cases stepped : replayer.step event with
  | mk after ending =>
      rw [stepped] at stopped
      simp only at stopped
      subst stopped
      simp only [processAll, stepped]
      exact ⟨trivial, trivial⟩

theorem taken_of_processAll {rest : List Trace.Event}
    (ended : (processAll replayer (event :: rest)).stopped = none) :
    (replayer.step event).2 = none ∧
      (processAll (replayer.step event).1 rest).stopped = none ∧
        (processAll replayer (event :: rest)).replayer =
          (processAll (replayer.step event).1 rest).replayer := by
  cases taken : (replayer.step event).2 with
  | some stop =>
      rw [(processAll_cons_of_stopped taken).1] at ended
      cases ended
  | none =>
      obtain ⟨goesOn, reached⟩ := @processAll_cons_of_taken replayer event rest taken
      rw [goesOn] at ended
      exact ⟨rfl, ended, reached⟩

theorem checker_processAll {events : List Trace.Event}
    (ended : (processAll replayer events).stopped = none) :
    (processAll replayer events).replayer.checker =
      replayer.checker.observeAll (events.map Trace.Event.observation) := by
  induction events generalizing replayer with
  | nil => rfl
  | cons first rest ih =>
      obtain ⟨taken, later, same⟩ := taken_of_processAll ended
      rw [same, ih later, checker_step taken]
      rfl

theorem Tracked.processAll {events : List Trace.Event}
    (tracked : Tracked engine config records history replayer)
    (known : History.Known records (history ++ events.map Trace.Event.observation))
    (clean : Checker.Clean config (history ++ events.map Trace.Event.observation))
    (fresh : ∀ before event after, events = before ++ event :: after →
      event.declares = true →
        (history ++ before.map Trace.Event.observation).phasesOf event.record.uid = [])
    (ended : (Replay.processAll replayer events).stopped = none) :
    Tracked engine config records (history ++ events.map Trace.Event.observation)
      (Replay.processAll replayer events).replayer := by
  induction events generalizing history replayer with
  | nil =>
      rw [List.map_nil, List.append_nil]
      exact tracked
  | cons first rest ih =>
      obtain ⟨taken, later, same⟩ := taken_of_processAll ended
      rw [same]
      rw [List.map_cons, List.append_cons] at known clean ⊢
      have here := Checker.clean_iff_throughout.mp clean history first.observation
        (rest.map Trace.Event.observation) (by rw [List.append_assoc]; rfl)
      have freshHere : first.declares = true → history.phasesOf first.record.uid = [] := by
        intro declares
        have unmentioned := fresh [] first rest rfl declares
        rwa [List.map_nil, List.append_nil] at unmentioned
      have next := tracked.step known.of_append here freshHere taken
      apply ih next known clean ?_ later
      intro before event after split declares
      have unmentioned := fresh (first :: before) event after
        (by rw [split, List.cons_append]) declares
      rwa [List.map_cons, List.append_cons] at unmentioned

end Handshake.Replay
