import Mathlib.Data.List.Basic
import Mathlib.Data.List.Perm.Basic
import Handshake.Proofs.Replay.Certificate
set_option autoImplicit false

/-! The transactions of a replay that the engine did not stop. Each declared transaction was
retired once or has leaked. The callbacks tell of a completion by what they know, which is
whether an acknowledgment is owed; a trace that names the end of a response as one that an
acknowledgment follows, for a transaction that owes none, is told of a completion of a
transaction that stays active. Without such an event the completions are the retired
transactions in the order of their retirement. -/

namespace Handshake.Replay

def endsAt (owes : Bool) (phase : Phase) : Bool :=
  phase = .acknowledge || (phase = .endResponse && !owes)

def toldAt (owes : Bool) (phase : Phase) : Bool :=
  phase = .acknowledge || ((phase = .endResponse || phase = .endResponseNoAck) && !owes)

/-! ### One reaction -/

private theorem told_of_step {state : State} {trigger : Phase} {move : Move}
    (step : state.step trigger = some move) (context : Context Timeline) (ack : Bool) :
    ((callbacks.run move.fired context).calls.filterMap (completion? ack)).map Completion.txn =
      if toldAt (ack && !context.isSnoop) trigger then [context.record.uid] else [] := by
  rw [completion_of_step step]
  cases ack <;> cases snoop : context.isSnoop <;> cases trigger <;> simp [toldAt]

variable {handle : Handle Timeline} {config : EngineConfig} {event trigger : Phase}

private theorem endsAt_of_trigger? (given : handle.trigger? config event = some trigger) :
    completes trigger = endsAt (config.ack && !handle.isSnoop) event ∧
      toldAt (config.ack && !handle.isSnoop) trigger =
        toldAt (config.ack && !handle.isSnoop) event := by
  cases event with
  | endResponse =>
      simp only [Handle.trigger?] at given
      cases owes : (config.ack && !handle.isSnoop) <;> rw [owes] at given <;> cases given <;>
        exact ⟨rfl, rfl⟩
  | writeValid | writeReady =>
      simp only [Handle.trigger?] at given
      split at given <;> cases given
      exact ⟨rfl, rfl⟩
  | _ =>
      cases given
      exact ⟨by simp [completes, endsAt], rfl⟩

theorem quiet_of_trigger?_eq_none (early : handle.trigger? config event = none) (owes : Bool) :
    endsAt owes event = false ∧ toldAt owes event = false ∧ callbacks.at? event = none := by
  cases event with
  | writeValid | writeReady => exact ⟨rfl, rfl, rfl⟩
  | endResponse =>
      simp only [Handle.trigger?] at early
      split at early <;> cases early
  | _ => cases early

/-- What a reaction that is accepted leaves of the active and the finished transactions, and
what it tells of completions. -/
structure Accepted (engine : EngineConfig) (before : Dispatcher Timeline) (txn : TxnId)
    (ends told : Bool) (outcome : Outcome Timeline (Except EngineError Unit)) : Prop where
  calm : Calm engine outcome.dispatcher
  finished : outcome.dispatcher.finished = before.finished ++ if ends then [txn] else []
  active : outcome.dispatcher.active = if ends then before.active.erase txn else before.active
  told : (completionsOf engine.ack outcome.journal).map Completion.txn =
    if told then [txn] else []

theorem Calm.accepted {engine : EngineConfig} {dispatcher : Dispatcher Timeline} {txn : TxnId}
    {bound : Dispatcher.Bound Timeline} (calm : Calm engine dispatcher)
    (found : dispatcher.bound? txn = some bound)
    (taken : (dispatcher.react event txn).answer = .ok ()) :
    Accepted engine dispatcher txn (endsAt (engine.ack && !bound.handle.isSnoop) event)
      (toldAt (engine.ack && !bound.handle.isSnoop) event) (dispatcher.react event txn) := by
  obtain ⟨bindings, sound⟩ := calm.sound
  have own := sound.uid_of_bound? found
  have moves : ∀ {trigger : Phase} {move : Move},
      bound.handle.trigger? dispatcher.config event = some trigger →
        bound.handle.state.step trigger = some move →
          decide (move.next = .idle) = endsAt (engine.ack && !bound.handle.isSnoop) event ∧
            (completionsOf engine.ack
              (dispatcher.advanceMachine txn bound trigger move.next move.fired).journal).map
                Completion.txn =
              if toldAt (engine.ack && !bound.handle.isSnoop) event then [txn] else [] := by
    intro trigger move given step
    rw [calm.config] at given
    obtain ⟨ends, told⟩ := endsAt_of_trigger? given
    rw [(calm.advanceMachine found _ _ _).2.2, completionsOf_called, calm.runOf_eq found,
      told_of_step step]
    simp only [Dispatcher.contextOf, own, told, ← ends]
    exact ⟨by simp [State.next_eq_idle_iff step], trivial⟩
  have reaction := dispatcher.react_reaction event txn
  generalize dispatcher.react event txn = outcome at reaction taken ⊢
  cases reaction with
  | unbound absent => cases taken
  | refused other same trigger given stuck => cases taken
  | notified other same early =>
      rw [found, Option.some.injEq] at same
      subst same
      obtain ⟨after, finished, journal⟩ :=
        calm.advanceMachine found event bound.handle.state [event]
      obtain ⟨stays, silent, unset⟩ :=
        quiet_of_trigger?_eq_none early (engine.ack && !bound.handle.isSnoop)
      rw [stays, silent]
      refine ⟨after, by rw [finished]; exact (List.append_nil _).symm,
        Dispatcher.active_advanceMachine .., ?_⟩
      have called : (completionsOf engine.ack (dispatcher.advanceMachine txn bound event
          bound.handle.state [event]).journal) = [] := by
        rw [journal, completionsOf_called, calm.runOf_eq found]
        simp [CallbackTable.run, unset]
      exact congrArg _ called
  | moved other same trigger given move step busy =>
      rw [found, Option.some.injEq] at same
      subst same
      obtain ⟨after, finished, -⟩ := calm.advanceMachine found trigger move.next move.fired
      obtain ⟨ends, told⟩ := moves given step
      rw [← ends, decide_eq_false busy]
      exact ⟨after, by rw [finished]; exact (List.append_nil _).symm,
        Dispatcher.active_advanceMachine .., told⟩
  | finished other same trigger given move step finishes =>
      rw [found, Option.some.injEq] at same
      subst same
      obtain ⟨after, finished, -⟩ := calm.advanceMachine found trigger move.next move.fired
      obtain ⟨ends, told⟩ := moves given step
      rw [← ends, decide_eq_true finishes]
      have boundAfter :=
        Dispatcher.bound?_advanceMachine_self found trigger move.next move.fired
      have retired := after.retire boundAfter finishes
      refine ⟨retired, ?_, ?_, ?_⟩
      · simp only [Dispatcher.retire, finished, if_true]
      · simp only [Dispatcher.retire, Dispatcher.active_advanceMachine, if_true]
      · rw [← told, completionsOf, List.cons_append, List.cons_append]
        simp only [List.filterMap_cons, List.filterMap_append, List.filterMap_nil,
          Activity.completion?, List.append_nil]
        rfl

/-! ### The ledger of a run -/

def owes (engine : EngineConfig) (record : Transaction) : Bool :=
  engine.ack && !record.snoopOnly

def retires (engine : EngineConfig) (event : Trace.Event) : Bool :=
  endsAt (owes engine event.record) event.phase

def tells (engine : EngineConfig) (event : Trace.Event) : Bool :=
  toldAt (owes engine event.record) event.phase

/-- An event is told of as a completion although its transaction stays active: it names the end
of a response as one that an acknowledgment follows, where none is owed. -/
def tellsEarly (engine : EngineConfig) (event : Trace.Event) : Bool :=
  event.phase = .endResponseNoAck && !owes engine event.record

/-- The state of a replay that has declared some transactions and processed some events. -/
structure Ledger (engine : EngineConfig) (records : TxnId → Transaction) (declared : List TxnId)
    (seen : List Trace.Event) (dispatcher : Dispatcher Timeline) (completions : List Completion) :
    Prop where
  calm : Calm engine dispatcher
  flags : ∀ txn bound, dispatcher.bound? txn = some bound →
    bound.handle.isSnoop = (records txn).snoopOnly
  finished : dispatcher.finished =
    (seen.filter (retires engine)).map (fun event => event.record.uid)
  told : completions.map Completion.txn =
    (seen.filter (tells engine)).map (fun event => event.record.uid)
  -- every declared transaction was retired once or is active
  shared : (dispatcher.finished ++ dispatcher.active.keys).Perm declared

private theorem map_filter_append_singleton (kept : Trace.Event → Bool) (seen : List Trace.Event)
    (event : Trace.Event) :
    ((seen ++ [event]).filter kept).map (fun event => event.record.uid) =
      (seen.filter kept).map (fun event => event.record.uid) ++
        if kept event then [event.record.uid] else [] := by
  rw [List.filter_append, List.map_append]
  congr 1
  cases keeps : kept event <;> simp [keeps]

namespace Ledger

variable {engine : EngineConfig} {checker : CheckerConfig} {records : TxnId → Transaction}
  {declared : List TxnId} {seen : List Trace.Event} {replayer : Replayer} {event : Trace.Event}

private theorem new (engine : EngineConfig) (checker : CheckerConfig)
    (records : TxnId → Transaction) :
    Ledger engine records [] [] (Replayer.new engine checker).dispatcher
      (Replayer.new engine checker).completions where
  calm := calm_new engine
  flags := by intro txn bound found; cases found
  finished := rfl
  told := rfl
  shared := .refl _

private theorem withNow {dispatcher : Dispatcher Timeline} {completions : List Completion}
    (ledger : Ledger engine records declared seen dispatcher completions) (now : Time) :
    Ledger engine records declared seen { dispatcher with now } completions :=
  { ledger with calm := ledger.calm.withNow now }

private theorem declare (ledger : Ledger engine records declared seen replayer.dispatcher
      replayer.completions)
    (own : records event.record.uid = event.record)
    (fresh : event.declares = true → event.record.uid ∉ declared) :
    Ledger engine records (declared ++ if event.declares then [event.record.uid] else []) seen
      (replayer.declare event).dispatcher (replayer.declare event).completions := by
  unfold Replayer.declare
  split
  · rename_i declares
    obtain ⟨bindings, sound⟩ := ledger.calm.sound
    have unknown : event.record.uid ∉ replayer.dispatcher.active.keys := fun active =>
      fresh declares (ledger.shared.subset (List.mem_append_right _ active))
    have inactive := Table.get?_eq_none_iff.mpr unknown
    obtain ⟨active, finished⟩ :=
      Dispatcher.active_bindRecord_self event.record event.record.snoopOnly inactive
    refine ⟨ledger.calm.bind _ _, ?_, finished.trans ledger.finished, ?_, ?_⟩
    · intro txn bound found
      by_cases here : txn = event.record.uid
      · subst here
        obtain ⟨fresh, known, -, -, -, flag⟩ :=
          Dispatcher.bound?_bindRecord_self sound event.record event.record.snoopOnly inactive
        rw [own, ← flag]
        cases known.symm.trans found
        rfl
      · have before := Dispatcher.bound?_bindRecord_of_ne sound event.record
          event.record.snoopOnly here
        exact ledger.flags txn bound (before.symm.trans found)
    · have nothing := completionsOf_bind replayer.dispatcher event.record event.record.snoopOnly
        replayer.dispatcher.config.ack
      rw [completionsOf] at nothing
      simp only [Replayer.take, nothing, List.append_nil]
      exact ledger.told
    · have keys : (replayer.take (replayer.dispatcher.bind (some event.record)
          event.record.snoopOnly)).dispatcher.active.keys =
            event.record.uid :: replayer.dispatcher.active.keys := by
        have binding := Table.insert_bindings_of_not_mem unknown
          (replayer.dispatcher.pick event.record.uid).answer
        rw [← active] at binding
        exact congrArg (List.map Prod.fst) binding
      have same : (replayer.take (replayer.dispatcher.bind (some event.record)
          event.record.snoopOnly)).dispatcher.finished = replayer.dispatcher.finished := finished
      rw [keys, same]
      exact (List.perm_middle.trans (ledger.shared.cons _)).trans
        (List.perm_append_singleton _ _).symm
  · rw [List.append_nil]
    exact ledger

theorem feed_cases (taken : (replayer.feed event).2 = none) :
    ((event.phase = .requestPhaseBegin ∨ event.phase = .responsePhaseBegin) ∧
        (replayer.feed event).1 = replayer) ∨
      ((replayer.dispatcher.react event.phase event.record.uid).answer = .ok () ∧
        (replayer.feed event).1 =
          replayer.take (replayer.dispatcher.react event.phase event.record.uid)) := by
  unfold Replayer.feed at taken ⊢
  cases phase : event.phase with
  | requestPhaseBegin => exact .inl ⟨.inl rfl, rfl⟩
  | responsePhaseBegin => exact .inl ⟨.inr rfl, rfl⟩
  | _ =>
      refine .inr ⟨?_, rfl⟩
      simp only [phase] at taken
      split at taken
      · assumption
      · cases taken

private theorem feed (ledger : Ledger engine records declared seen replayer.dispatcher
      replayer.completions)
    (own : records event.record.uid = event.record) (taken : (replayer.feed event).2 = none) :
    Ledger engine records declared (seen ++ [event]) (replayer.feed event).1.dispatcher
      (replayer.feed event).1.completions := by
  obtain ⟨bindings, sound⟩ := ledger.calm.sound
  rcases feed_cases taken with ⟨point, same⟩ | ⟨answer, same⟩
  · have silent : retires engine event = false ∧ tells engine event = false := by
      rcases point with point | point <;> simp [retires, tells, endsAt, toldAt, point]
    rw [same]
    refine ⟨ledger.calm, ledger.flags, ?_, ?_, ledger.shared⟩
    · rw [map_filter_append_singleton, silent.1, ledger.finished]
      exact (List.append_nil _).symm
    · rw [map_filter_append_singleton, silent.2, ledger.told]
      exact (List.append_nil _).symm
  · obtain ⟨bound, found⟩ := Dispatcher.exists_bound?_of_react answer
    -- the dispatcher goes by the flag of the handle, the trace by that of the record
    have flag : bound.handle.isSnoop = event.record.snoopOnly := by
      rw [ledger.flags _ bound found, own]
    obtain ⟨calm, finished, active, told⟩ := ledger.calm.accepted found answer
    rw [flag] at finished active told
    rw [same]
    refine ⟨calm, ?_, ?_, ?_, ?_⟩
    · intro txn after bound
      obtain ⟨before, found, flag⟩ := Dispatcher.isSnoop_of_bound?_react sound _ bound
      rw [← flag, ledger.flags txn before found]
    · rw [map_filter_append_singleton, ← ledger.finished]
      exact finished
    · rw [map_filter_append_singleton, ← ledger.told, Replayer.take, ledger.calm.config,
        List.map_append]
      exact congrArg _ told
    · have taken := (Dispatcher.bound?_eq_some_iff.mp found).1
      have left := Table.keys_perm_of_get? sound.keys taken
      have both : ((replayer.dispatcher.react event.phase event.record.uid).dispatcher.finished
          ++ (replayer.dispatcher.react event.phase
            event.record.uid).dispatcher.active.keys).Perm
          (replayer.dispatcher.finished ++ replayer.dispatcher.active.keys) := by
        rw [finished, active]
        split
        · rw [List.append_assoc]
          exact (left.append_left _).symm
        · rw [List.append_nil]
      exact both.trans ledger.shared

private theorem step (ledger : Ledger engine records declared seen replayer.dispatcher
      replayer.completions)
    (own : records event.record.uid = event.record)
    (fresh : event.declares = true → event.record.uid ∉ declared)
    (taken : (replayer.step event).2 = none) :
    Ledger engine records (declared ++ if event.declares then [event.record.uid] else [])
      (seen ++ [event]) (replayer.step event).1.dispatcher
      (replayer.step event).1.completions := by
  rw [step_eq ledger.calm event] at taken ⊢
  have later : Ledger engine records declared seen
      ((replayer.at event.time).check event).dispatcher
      ((replayer.at event.time).check event).completions := ledger.withNow _
  exact (later.declare own fresh).feed own taken

private theorem processAll {events : List Trace.Event}
    (ledger : Ledger engine records
      ((seen.filter Trace.Event.declares).map (fun event => event.record.uid)) seen
      replayer.dispatcher replayer.completions)
    (known : ∀ event ∈ events, records event.record.uid = event.record)
    (fresh : (seen ++ events).Pairwise (fun earlier later =>
      later.declares = true → earlier.record.uid ≠ later.record.uid))
    (ended : (Replay.processAll replayer events).stopped = none) :
    Ledger engine records
      (((seen ++ events).filter Trace.Event.declares).map (fun event => event.record.uid))
      (seen ++ events) (Replay.processAll replayer events).replayer.dispatcher
      (Replay.processAll replayer events).replayer.completions := by
  induction events generalizing seen replayer with
  | nil =>
      rw [List.append_nil]
      exact ledger
  | cons first rest ih =>
      obtain ⟨taken, later, same⟩ := taken_of_processAll ended
      have freshHere : first.declares = true → first.record.uid ∉
          (seen.filter Trace.Event.declares).map (fun event => event.record.uid) := by
        intro declares member
        obtain ⟨earlier, among, uid⟩ := List.mem_map.mp member
        exact (List.pairwise_append.mp fresh).2.2 earlier (List.mem_filter.mp among).1 first
          List.mem_cons_self declares uid
      have next := ledger.step (known first List.mem_cons_self) freshHere taken
      rw [← map_filter_append_singleton] at next
      rw [List.append_cons] at fresh ⊢
      rw [same]
      exact ih next (fun event member => known event (List.mem_cons_of_mem _ member)) fresh later

end Ledger

/-! ### The whole trace -/

private theorem tells_eq (engine : EngineConfig) (event : Trace.Event) :
    tells engine event = (retires engine event || tellsEarly engine event) := by
  unfold tells retires tellsEarly toldAt endsAt
  cases event.phase <;> simp

private theorem not_tellsEarly_of_retires {engine : EngineConfig} {event : Trace.Event}
    (ends : retires engine event = true) : tellsEarly engine event = false := by
  unfold retires tellsEarly endsAt at *
  cases phase : event.phase <;> simp_all

private theorem length_filter_tells (engine : EngineConfig) (events : List Trace.Event) :
    (events.filter (tells engine)).length =
      (events.filter (retires engine)).length + events.countP (tellsEarly engine) := by
  induction events with
  | nil => rfl
  | cons first rest ih =>
      simp only [List.filter_cons, List.countP_cons, tells_eq]
      cases ends : retires engine first with
      | true =>
          simp [not_tellsEarly_of_retires ends, ih]
          omega
      | false =>
          cases tellsEarly engine first <;> simp [ih]
          omega

/-- How the transactions of a trace came out of a replay that retired some of them. -/
structure Settled (engine : EngineConfig) (trace : Trace) (retired : List TxnId)
    (summary : Summary) : Prop where
  -- every declared transaction was retired once or has leaked, and none did both
  shared : (retired ++ summary.leaked).Perm (trace.declared.map (fun entry => entry.record.uid))
  distinct : (trace.declared.map (fun entry => entry.record.uid)).Nodup
  retired : retired = (trace.events.filter (retires engine)).map (fun event => event.record.uid)
  completions : summary.completions.map Completion.txn =
    (trace.events.filter (tells engine)).map (fun event => event.record.uid)

namespace Settled

variable {engine : EngineConfig} {trace : Trace} {retired : List TxnId} {summary : Summary}

private theorem length_add_length (settled : Settled engine trace retired summary) :
    summary.completions.length + summary.leaked.length =
      trace.transactionCount + trace.events.countP (tellsEarly engine) := by
  have all := settled.shared.length_eq
  have told := congrArg List.length settled.completions
  have ended := congrArg List.length settled.retired
  rw [List.length_append, List.length_map] at all
  rw [List.length_map, List.length_map, length_filter_tells] at told
  rw [List.length_map] at ended
  rw [Trace.transactionCount, ← all, told, ended]
  omega

private theorem completions_eq (settled : Settled engine trace retired summary)
    (prompt : ∀ event ∈ trace.events, tellsEarly engine event = false) :
    summary.completions.map Completion.txn = retired := by
  rw [settled.completions, settled.retired]
  congr 1
  refine List.filter_congr (fun event member => ?_)
  rw [tells_eq, prompt event member, Bool.or_false]

private theorem retired_or_leaked (settled : Settled engine trace retired summary)
    {entry : Trace.Declared} (member : entry ∈ trace.declared) :
    (retired.count entry.record.uid = 1 ∧ entry.record.uid ∉ summary.leaked) ∨
      (entry.record.uid ∉ retired ∧ entry.record.uid ∈ summary.leaked) := by
  have among : entry.record.uid ∈ retired ++ summary.leaked :=
    settled.shared.symm.subset (List.mem_map_of_mem member)
  have apart := List.nodup_append.mp (settled.shared.nodup_iff.mpr settled.distinct)
  rcases List.mem_append.mp among with ended | leaked
  · exact .inl ⟨List.count_eq_one_of_mem apart.1 ended,
      fun leaked => apart.2.2 _ ended _ leaked rfl⟩
  · exact .inr ⟨fun ended => apart.2.2 _ ended _ leaked rfl, leaked⟩

end Settled

private theorem settled_processAll {engine : EngineConfig} {config : CheckerConfig}
    {text : List Char}
    {trace : Trace} (parsed : Trace.parse text = .ok trace)
    (ended : (processAll (.new engine config) trace.events).stopped = none) :
    Settled engine trace
      (processAll (.new engine config) trace.events).replayer.dispatcher.finished
      (trace.replay engine config).summary := by
  have wellFormed := Trace.parse_wellFormed parsed
  have known := Trace.known_history wellFormed
  have ledger := @Ledger.processAll engine trace.recordAt [] (.new engine config) trace.events
    (.new engine config trace.recordAt)
    (fun event member => known event.observation (List.mem_map_of_mem member))
    wellFormed.fresh ended
  have declarations := congrArg (List.map Transaction.uid) (Trace.parse_declarations parsed)
  rw [List.map_map, List.map_map] at declarations
  refine ⟨?_, ?_, ledger.finished, ledger.told⟩
  · rw [leaked_of_ended ended]
    refine ((List.mergeSort_perm _ _).append_left _).trans (ledger.shared.trans ?_)
    exact .of_eq declarations
  · exact wellFormed.nodup_uids

/-- Every declared transaction of a trace that the engine took was retired once or has leaked.
The completions tell of the retired ones, in the order of their retirement, and of those whose
response a trace ended as if an acknowledgment were owed. -/
theorem settled_of_unstopped (engine : EngineConfig) (config : CheckerConfig)
    {text : List Char} {trace : Trace} (parsed : Trace.parse text = .ok trace)
    (unstopped : (trace.replay engine config).summary.stopped = none) :
    let retired := (processAll (.new engine config) trace.events).replayer.dispatcher.finished
    let summary := (trace.replay engine config).summary
    Settled engine trace retired summary ∧
      (∀ entry ∈ trace.declared,
        (retired.count entry.record.uid = 1 ∧ entry.record.uid ∉ summary.leaked) ∨
          (entry.record.uid ∉ retired ∧ entry.record.uid ∈ summary.leaked)) ∧
      ((∀ event ∈ trace.events, tellsEarly engine event = false) →
        summary.completions.map Completion.txn = retired) ∧
      summary.completions.length + summary.leaked.length =
        trace.transactionCount + trace.events.countP (tellsEarly engine) := by
  have settled := settled_processAll parsed unstopped
  exact ⟨settled, fun entry member => settled.retired_or_leaked member, settled.completions_eq,
    settled.length_add_length⟩

theorem settled_of_writeAndRead :
    ∃ trace, Trace.parse writeAndRead.toList = .ok trace ∧
      (trace.replay {} {}).summary.stopped = none ∧
        (∀ event ∈ trace.events, tellsEarly {} event = false) ∧
          (trace.replay {} {}).summary.completions.map Completion.txn =
            (processAll (.new {} {}) trace.events).replayer.dispatcher.finished := by
  have outcome : (Trace.parse writeAndRead.toList).toOption.map (fun trace =>
      ((trace.replay {} {}).summary.stopped,
        trace.events.all (fun event => !tellsEarly {} event))) = some (none, true) := by
    decide +kernel
  obtain ⟨trace, parsed, told⟩ := Trace.exists_parse_of_toOption outcome
  obtain ⟨unstopped, prompt⟩ := Prod.mk.inj told
  have promptly : ∀ event ∈ trace.events, tellsEarly {} event = false := by
    simpa using prompt
  exact ⟨trace, parsed, unstopped, promptly,
    (settled_of_unstopped {} {} parsed unstopped).2.2.1 promptly⟩

/-- A read whose response is ended as if an acknowledgment were owed, with none to follow. -/
def unowedEnd : String :=
  "@0 fw BeginRequest r cmd=read\n" ++
  "@1 bw EndRequest r\n" ++
  "@2 bw BeginResponse r\n" ++
  "@3 fw EndResponseNoAck r\n"

theorem completed_and_leaked_of_unowedEnd :
    ∃ trace, Trace.parse unowedEnd.toList = .ok trace ∧
      (trace.replay {} {}).summary.stopped = none ∧
        (trace.replay {} {}).summary.completions.map Completion.txn = [⟨0⟩] ∧
          (trace.replay {} {}).summary.leaked = [⟨0⟩] ∧ trace.transactionCount = 1 := by
  have outcome : (Trace.parse unowedEnd.toList).toOption.map (fun trace =>
      ((trace.replay {} {}).summary.stopped,
        (trace.replay {} {}).summary.completions.map Completion.txn,
        (trace.replay {} {}).summary.leaked, trace.transactionCount)) =
      some (none, [⟨0⟩], [⟨0⟩], 1) := by
    decide +kernel
  obtain ⟨trace, parsed, told⟩ := Trace.exists_parse_of_toOption outcome
  simp only [Prod.mk.injEq] at told
  exact ⟨trace, parsed, told⟩

end Handshake.Replay
