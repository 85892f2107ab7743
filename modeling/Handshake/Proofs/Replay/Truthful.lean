import Handshake.Proofs.Replay.Timing
import Handshake.Proofs.Trace.Faithful
set_option autoImplicit false

/-! What a replay tells of its trace. Each completion is recorded while an event is processed,
and tells when its transaction was declared, when its machine left the request state, how many
beats of it were over, and that it ends at this event. -/

namespace Handshake

namespace Replay

variable {engine : EngineConfig}

/-- The completions that are recorded while an event is processed. -/
def recorded (replayer : Replayer) (event : Trace.Event) : List Completion :=
  (replayer.step event).1.completions.drop replayer.completions.length

section

variable {replayer : Replayer} {event : Trace.Event} {completion : Completion}

private theorem Calm.readied (calm : Calm engine replayer.dispatcher) (event : Trace.Event) :
    Calm engine (replayer.readied event).dispatcher := by
  unfold Replayer.readied Replayer.declare
  split
  · exact (calm.withNow (max replayer.dispatcher.now event.time)).bind _ _
  · exact calm.withNow (max replayer.dispatcher.now event.time)

private theorem completions_readied (replayer : Replayer) (event : Trace.Event) :
    (replayer.readied event).completions = replayer.completions := by
  unfold Replayer.readied Replayer.declare
  split
  · have nothing := completionsOf_bind ((replayer.at event.time).check event).dispatcher
      event.record event.record.snoopOnly
      ((replayer.at event.time).check event).dispatcher.config.ack
    rw [completionsOf] at nothing
    simp only [Replayer.take, nothing, List.append_nil]
    rfl
  · rfl

private theorem completions_step (calm : Calm engine replayer.dispatcher) (event : Trace.Event) :
    ∃ more, (replayer.step event).1.completions = replayer.completions ++ more ∧
      more ⊆ completionsOf engine.ack
        ((replayer.readied event).dispatcher.react event.phase event.record.uid).journal := by
  rw [step_eq_feed_readied calm, ← completions_readied replayer event]
  unfold Replayer.feed
  split
  · exact ⟨[], (List.append_nil _).symm, List.nil_subset _⟩
  · exact ⟨[], (List.append_nil _).symm, List.nil_subset _⟩
  · refine ⟨_, rfl, ?_⟩
    rw [(calm.readied event).config]
    exact List.Subset.refl _

private theorem mem_recorded (calm : Calm engine replayer.dispatcher)
    (member : completion ∈ recorded replayer event) :
    completion ∈ completionsOf engine.ack
      ((replayer.readied event).dispatcher.react event.phase event.record.uid).journal := by
  obtain ⟨more, same, among⟩ := completions_step calm event
  rw [recorded, same, List.drop_left] at member
  exact among member

private theorem Calm.step (calm : Calm engine replayer.dispatcher)
    (taken : (replayer.step event).2 = none) : Calm engine (replayer.step event).1.dispatcher := by
  rw [step_eq_feed_readied calm] at taken ⊢
  rcases Ledger.feed_cases taken with ⟨-, same⟩ | ⟨answer, same⟩
  · rw [same]
    exact calm.readied event
  · rw [same]
    obtain ⟨bound, found⟩ := Dispatcher.exists_bound?_of_react answer
    exact ((calm.readied event).accepted found answer).calm

private theorem exists_recorded {events : List Trace.Event} (calm : Calm engine replayer.dispatcher)
    (member : completion ∈ (processAll replayer events).replayer.completions) :
    completion ∈ replayer.completions ∨
      ∃ before event after, events = before ++ event :: after ∧
        (processAll replayer before).stopped = none ∧
          completion ∈ recorded (processAll replayer before).replayer event := by
  induction events generalizing replayer with
  | nil => exact .inl member
  | cons first rest ih =>
      obtain ⟨more, same, -⟩ := completions_step calm first
      have here : completion ∈ (replayer.step first).1.completions →
          completion ∈ replayer.completions ∨ completion ∈ recorded replayer first := by
        intro member
        rw [recorded, same, List.drop_left]
        rw [same] at member
        exact List.mem_append.mp member
      cases stopped : (replayer.step first).2 with
      | some stop =>
          rw [(processAll_cons_of_stopped stopped).2] at member
          exact (here member).imp id (fun now => ⟨[], first, rest, rfl, rfl, now⟩)
      | none =>
          rw [(processAll_cons_of_taken stopped).2] at member
          rcases ih (calm.step stopped) member with old | ⟨before, event, after, split, goes, now⟩
          · exact (here old).imp id (fun now => ⟨[], first, rest, rfl, rfl, now⟩)
          · obtain ⟨ending, reached⟩ := @processAll_cons_of_taken replayer first before stopped
            refine .inr ⟨first :: before, event, after, by rw [split]; rfl, ?_, ?_⟩
            · rw [ending]
              exact goes
            · rw [reached]
              exact now

end

/-- A completion that is recorded while an event is processed, after some events that the
engine took, tells the truth about the trace. -/
structure Truthful (engine : EngineConfig) (checker : CheckerConfig) (trace : Trace)
    (before : List Trace.Event) (event : Trace.Event) (completion : Completion) : Prop where
  txn : completion.txn = event.record.uid
  started : ∃ first,
    trace.events.filter (fun event => event.declares && event.record.uid = completion.txn) =
      [first] ∧ completion.started = first.time
  responseBegan : ∃ leaving, leavings completion.txn (.new engine checker) before = [leaving] ∧
    completion.responseBegan = some leaving.time
  beats : completion.beats = 1 + before.countP (fun event =>
    event.record.uid = completion.txn &&
      (event.phase = .endPartialRequest || event.phase = .endPartialResponse))
  finished : completion.finished = event.time
  ordered : ∃ began, completion.responseBegan = some began ∧ completion.started ≤ began ∧
    began ≤ completion.finished

private theorem filter_declares_eq {events : List Trace.Event}
    (fresh : events.Pairwise (fun earlier later =>
      later.declares = true → earlier.record.uid ≠ later.record.uid))
    {first : Trace.Event} (member : first ∈ events) (declares : first.declares = true) :
    events.filter (fun event => event.declares && event.record.uid = first.record.uid) =
      [first] := by
  have among : first ∈
      events.filter (fun event => event.declares && event.record.uid = first.record.uid) :=
    List.mem_filter.mpr ⟨member, by simp [declares]⟩
  have apart := fresh.filter (fun event => event.declares && event.record.uid = first.record.uid)
  have own : ∀ event ∈
      events.filter (fun event => event.declares && event.record.uid = first.record.uid),
      event.declares = true ∧ event.record.uid = first.record.uid := by
    intro event member
    simpa using (List.mem_filter.mp member).2
  generalize events.filter (fun event => event.declares && event.record.uid = first.record.uid) =
    declaring at among apart own
  cases declaring with
  | nil => cases among
  | cons head rest =>
      cases rest with
      | nil => rw [List.mem_singleton.mp among]
      | cons next rest =>
          -- a later declaration is of a transaction that was not named before
          obtain ⟨declared, uid⟩ := own next (by simp)
          have different := (List.pairwise_cons.mp apart).1 next List.mem_cons_self declared
          exact absurd ((own head List.mem_cons_self).2.trans uid.symm) different

private theorem truthful_of_mem_recorded {engine : EngineConfig} {checker : CheckerConfig}
    {trace : Trace} {before after : List Trace.Event} {event : Trace.Event}
    {completion : Completion} (split : trace.events = before ++ event :: after)
    (fresh : trace.events.Pairwise (fun earlier later =>
      later.declares = true → earlier.record.uid ≠ later.record.uid))
    (times : trace.events.Pairwise (fun earlier later => earlier.time ≤ later.time))
    (taken : (processAll (.new engine checker) before).stopped = none)
    (member : completion ∈ recorded (processAll (.new engine checker) before).replayer event) :
    Truthful engine checker trace before event completion := by
  have freshAround := fresh
  rw [split] at freshAround times
  obtain ⟨freshBefore, -, freshHere⟩ := List.pairwise_append.mp freshAround
  obtain ⟨timesBefore, -, timesHere⟩ := List.pairwise_append.mp times
  have begins : Timed engine (([] : List Trace.Event).filter Trace.Event.declares) [] (fun _ => [])
      (Replayer.new engine checker).dispatcher := .new engine checker
  obtain ⟨timed, bounded⟩ := begins.processAll freshBefore timesBefore
    (fun _ _ => Nat.zero_le _) taken
  simp only [List.nil_append] at timed
  obtain ⟨ready, present⟩ := timed.ready
    (fun declares earlier among => freshHere earlier among event List.mem_cons_self declares)
    (bounded event.time (Nat.zero_le _)
      (fun earlier among => timesHere earlier among event List.mem_cons_self))
  have told := mem_recorded timed.calm member
  cases found : ((processAll (.new engine checker) before).replayer.readied event).dispatcher.bound?
      event.record.uid with
  | none =>
      simp only [Dispatcher.react, found] at told
      cases told
  | some bound =>
      obtain ⟨rfl, answered⟩ := ready.calm.completion_eq found told
      have inTime := ready.inTime _ bound found
      obtain ⟨first, declaring, own, start⟩ := inTime.started
      obtain ⟨among, declares⟩ := List.mem_filter.mp declaring
      have inTrace : first ∈ trace.events := by
        rw [split]
        rcases List.mem_append.mp among with earlier | here
        · exact List.mem_append_left _ earlier
        · rw [List.mem_singleton.mp here]
          exact List.mem_append_right _ List.mem_cons_self
      rw [inTime.answered] at answered
      obtain ⟨began, when⟩ := Option.isSome_iff_exists.mp answered
      obtain ⟨afterStart, past⟩ := inTime.ordered began when
      have leaving := inTime.began
      rw [when] at leaving
      obtain ⟨leaves, only, rfl⟩ := List.map_eq_singleton_iff.mp leaving.symm
      refine ⟨rfl, ⟨first, ?_, start⟩, ⟨leaves, only, when⟩, ?_, present, _, when, afterStart,
        past⟩
      · rw [← own]
        exact filter_declares_eq fresh inTrace declares
      · rw [inTime.beats, Nat.add_comm]
        rfl

/-- In every trace that was read and under every configuration: what is recorded while an event
is processed is a truthful completion of its transaction, and every completion of the summary
is recorded like that. -/
theorem truthful_of_parse (engine : EngineConfig) (checker : CheckerConfig) {text : List Char}
    {trace : Trace} (parsed : Trace.parse text = .ok trace) :
    (∀ before event after, trace.events = before ++ event :: after →
      (processAll (.new engine checker) before).stopped = none →
        ∀ completion ∈ recorded (processAll (.new engine checker) before).replayer event,
          Truthful engine checker trace before event completion) ∧
      ∀ completion ∈ (trace.replay engine checker).summary.completions,
        ∃ before event after, trace.events = before ++ event :: after ∧
          (processAll (.new engine checker) before).stopped = none ∧
            completion ∈ recorded (processAll (.new engine checker) before).replayer event := by
  obtain ⟨placed, final, -, accounts, events, -⟩ := Trace.parse_accounts parsed
  have times := List.pairwise_map.mp accounts.times
  rw [events] at times
  refine ⟨?_, ?_⟩
  · intro before event after split taken completion member
    exact truthful_of_mem_recorded split (Trace.parse_wellFormed parsed).fresh times taken member
  · intro completion member
    rcases exists_recorded (calm_new engine) member with old | now
    · cases old
    · exact now

def acknowledgedWriteAroundRead : String :=
  "@0 fw BeginPartialRequest w cmd=write len=1\n" ++
  "@1 fw BeginRequest r cmd=read\n" ++
  "@2 bw EndPartialRequest w\n" ++
  "@3 fw BeginRequest w\n" ++
  "@4 bw BeginResponse w\n" ++
  "@6 fw EndResponse w\n" ++
  "@7 fw Acknowledge w\n"

theorem truthful_of_acknowledgedWriteAroundRead :
    ∃ trace, Trace.parse acknowledgedWriteAroundRead.toList = .ok trace ∧
      (trace.replay { ack := true } {}).summary.completions = [⟨⟨0⟩, 2, 0, some 4, 7⟩] ∧
      ∃ before event after, trace.events = before ++ event :: after ∧
        Truthful { ack := true } {} trace before event ⟨⟨0⟩, 2, 0, some 4, 7⟩ := by
  have outcome : (Trace.parse acknowledgedWriteAroundRead.toList).toOption.map (fun trace =>
      (trace.replay { ack := true } {}).summary.completions) =
        some [⟨⟨0⟩, 2, 0, some 4, 7⟩] := by
    decide +kernel
  obtain ⟨trace, parsed, told⟩ := Trace.exists_parse_of_toOption outcome
  obtain ⟨truthful, complete⟩ := truthful_of_parse { ack := true } {} parsed
  obtain ⟨before, event, after, split, taken, member⟩ := complete ⟨⟨0⟩, 2, 0, some 4, 7⟩ (by
    rw [told]
    exact List.mem_singleton_self _)
  exact ⟨trace, parsed, told, before, event, after, split,
    truthful before event after split taken _ member⟩

end Replay

end Handshake
