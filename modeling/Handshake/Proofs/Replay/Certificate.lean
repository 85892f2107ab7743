import Handshake.Proofs.Replay.Run
set_option autoImplicit false

/-! A clean replay is a certificate. If the checker found nothing and the engine took every
event of a trace, then request bursts do not overlap, responses come in the order of
acceptance, bursts have the beats that their length fields announce, and every declared
transaction is complete or leaked. -/

namespace Handshake

private theorem History.partialBeats_phasesOf (history : History) (txn : TxnId) :
    Replay.partialBeats (history.phasesOf txn) =
      (history.handshakesOf txn).count .endPartialRequest +
        (history.handshakesOf txn).count .endPartialResponse := by
  rw [handshakesOf, List.count_filter rfl, List.count_filter rfl]
  rfl

namespace Replay

variable {engine : EngineConfig} {config : CheckerConfig} {records : TxnId → Transaction}
  {history : History} {replayer : Replayer} {txn : TxnId}

/-! ### Single transactions -/

private theorem Standing.told_or_active {phases : List Phase} {progress : Option (State × Nat)}
    {told : List Nat} (standing : Standing phases progress told) (mentioned : phases ≠ []) :
    (told.length = 1 ∧ progress = none) ∨ (told.length = 0 ∧ progress ≠ none) := by
  cases standing with
  | undeclared unmentioned => exact absurd unmentioned mentioned
  | running path alive => exact .inr ⟨rfl, Option.some_ne_none _⟩
  | owing answered => exact .inr ⟨rfl, Option.some_ne_none _⟩
  | complete answered => exact .inl ⟨rfl, rfl⟩

private theorem Standing.of_mem_told {phases : List Phase} {progress : Option (State × Nat)}
    {told : List Nat} (standing : Standing phases progress told) {beats : Nat}
    (member : beats ∈ told) : .endResponse ∈ phases ∧ beats = partialBeats phases + 1 := by
  cases standing with
  | undeclared unmentioned => cases member
  | running path alive => cases member
  | owing answered => cases member
  | complete answered => exact ⟨answered, List.mem_singleton.mp member⟩

private theorem Calm.mem_activeTransactions_iff {dispatcher : Dispatcher Timeline}
    (calm : Calm engine dispatcher) (txn : TxnId) :
    txn ∈ dispatcher.activeTransactions ↔ progress? dispatcher txn ≠ none := by
  obtain ⟨bindings, sound⟩ := calm.sound
  rw [Dispatcher.activeTransactions, List.mem_mergeSort]
  constructor
  · intro member absent
    have inactive := sound.inactive_of_bound?_eq_none (Option.map_eq_none_iff.mp absent)
    exact Table.get?_eq_none_iff.mp inactive member
  · intro active
    by_contra absent
    apply active
    rw [progress?, Dispatcher.bound?_eq_none_of_inactive (Table.get?_eq_none_iff.mpr absent)]
    rfl

namespace Tracked

private theorem beats_of_answered (tracked : Tracked engine config records history replayer)
    (known : History.Known records history) (clean : Checker.Clean config history)
    (answered : .endResponse ∈ history.phasesOf txn)
    (bursts : (records txn).isRead = true ∨ (records txn).isWrite = true) :
    partialBeats (history.phasesOf txn) + 1 = (records txn).beats := by
  obtain ⟨courses, account⟩ := tracked.fitting.exists_account known
  rw [History.partialBeats_phasesOf]
  rcases bursts with read | write
  · have notWrite : (records txn).isWrite = false := by
      simp_all [Transaction.isRead, Transaction.isWrite]
    rw [Checker.Fitting.count_endPartialRequest known clean account.follows notWrite,
      (tracked.fitting.counts_of_read known clean tracked.once read
        (History.mem_handshakesOf.mpr ⟨answered, rfl⟩)).1, Nat.zero_add]
    rfl
  · have notRead : (records txn).isRead = false := by
      simp_all [Transaction.isRead, Transaction.isWrite]
    -- what was answered had been accepted
    obtain ⟨seen, member, uid, ends⟩ := History.mem_phasesOf.mp answered
    have performed : txn ∈ history.performed .endResponse seen.record.command
        seen.record.axiId := by
      refine List.mem_map.mpr ⟨seen, List.mem_filter.mpr ⟨member, ?_⟩, uid⟩
      simp [ends]
    have accepted := History.mem_phasesOf_of_mem_performed
      ((account.performed_prefix seen.record.command seen.record.axiId).subset performed)
    rw [Checker.Fitting.count_endPartialResponse known clean account.follows notRead,
      (tracked.fitting.counts_of_write known clean tracked.once write
        (History.mem_handshakesOf.mpr ⟨accepted, rfl⟩)).1]
    rfl

end Tracked

/-! ### The certificate -/

/-- What a clean replay of a trace certifies. -/
structure Certificate (trace : Trace) (summary : Summary) : Prop where
  requestsApart : trace.history.Throughout History.RequestsApart
  answeredInTurn : trace.history.Throughout History.AnsweredInTurn
  answeredInOrder : ∀ command axiId,
    trace.history.performed .endResponse command axiId <+:
      trace.history.performed .endRequest command axiId
  writeBeats : ∀ entry ∈ trace.declared, entry.record.isWrite = true →
    .endRequest ∈ trace.history.phasesOf entry.record.uid →
      trace.history.beatsOf entry.record.uid .request = entry.record.beats
  readBeats : ∀ entry ∈ trace.declared, entry.record.isRead = true →
    .endResponse ∈ trace.history.phasesOf entry.record.uid →
      trace.history.beatsOf entry.record.uid .response = entry.record.beats
  completedOrLeaked : ∀ entry ∈ trace.declared,
    (summary.completions.countP (fun completion => completion.txn = entry.record.uid) = 1 ∧
        entry.record.uid ∉ summary.leaked) ∨
      (summary.completions.countP (fun completion => completion.txn = entry.record.uid) = 0 ∧
        entry.record.uid ∈ summary.leaked)
  completionBeats : ∀ completion ∈ summary.completions, ∃ entry ∈ trace.declared,
    entry.record.uid = completion.txn ∧
      (entry.record.isRead = true ∨ entry.record.isWrite = true →
        completion.beats = entry.record.beats)

variable {text : List Char} {trace : Trace}

private theorem ended_and_clean_of_isClean
    (isClean : (trace.replay engine config).summary.isClean = true) :
    (processAll (.new engine config) trace.events).stopped = none ∧
      Checker.Clean config trace.history := by
  simp only [Summary.isClean, Bool.and_eq_true, decide_eq_true_eq, Option.isNone_iff_eq_none]
    at isClean
  obtain ⟨silent, unstopped⟩ := isClean
  have ended : (processAll (.new engine config) trace.events).stopped = none := unstopped
  have found : (processAll (.new engine config) trace.events).replayer.checker.violations = [] :=
    List.length_eq_zero_iff.mp silent
  rw [checker_processAll ended] at found
  exact ⟨ended, found⟩

theorem leaked_of_ended (ended : (processAll (.new engine config) trace.events).stopped = none) :
    (trace.replay engine config).summary.leaked =
      (processAll (.new engine config) trace.events).replayer.dispatcher.activeTransactions := by
  simp only [Trace.replay, leaks, ended, List.map_map]
  exact List.map_id _

private theorem tracked_of_isClean (parsed : Trace.parse text = .ok trace)
    (isClean : (trace.replay engine config).summary.isClean = true) :
    Tracked engine config trace.recordAt trace.history
      (processAll (.new engine config) trace.events).replayer := by
  have wellFormed := Trace.parse_wellFormed parsed
  obtain ⟨ended, clean⟩ := ended_and_clean_of_isClean isClean
  have run := (tracked_new engine config trace.recordAt).processAll
    (Trace.known_history wellFormed) clean
    (fun before event after split => Trace.phasesOf_of_declares wellFormed split) ended
  rw [List.nil_append] at run
  exact run

private theorem Tracked.completed_or_leaked
    (tracked : Tracked engine config trace.recordAt trace.history replayer)
    (wellFormed : Trace.WellFormed trace.events trace.declared) {entry : Trace.Declared}
    (member : entry ∈ trace.declared) :
    (replayer.completions.countP (fun completion => completion.txn = entry.record.uid) = 1 ∧
        entry.record.uid ∉ replayer.dispatcher.activeTransactions) ∨
      (replayer.completions.countP (fun completion => completion.txn = entry.record.uid) = 0 ∧
        entry.record.uid ∈ replayer.dispatcher.activeTransactions) := by
  obtain ⟨event, among, same⟩ := wellFormed.mentioned entry member
  have mentioned : trace.history.phasesOf entry.record.uid ≠ [] := by
    apply List.ne_nil_of_mem
    exact History.mem_phasesOf.mpr
      ⟨event.observation, List.mem_map_of_mem among, congrArg Transaction.uid same, rfl⟩
  have standing := tracked.standings.standing entry.record.uid
  have accounted := standing.told_or_active mentioned
  rw [told, List.length_map, ← List.countP_eq_length_filter] at accounted
  rw [tracked.standings.calm.mem_activeTransactions_iff, not_not]
  exact accounted

private theorem Tracked.beats_of_completion
    (tracked : Tracked engine config trace.recordAt trace.history replayer)
    (wellFormed : Trace.WellFormed trace.events trace.declared)
    (clean : Checker.Clean config trace.history) {completion : Completion}
    (member : completion ∈ replayer.completions) :
    ∃ entry ∈ trace.declared, entry.record.uid = completion.txn ∧
      (entry.record.isRead = true ∨ entry.record.isWrite = true →
        completion.beats = entry.record.beats) := by
  have tells : completion.beats ∈ told replayer.completions completion.txn :=
    List.mem_map.mpr ⟨completion, List.mem_filter.mpr ⟨member, by simp⟩, rfl⟩
  have standing := tracked.standings.standing completion.txn
  obtain ⟨answered, beats⟩ := standing.of_mem_told tells
  obtain ⟨seen, among, uid, -⟩ := History.mem_phasesOf.mp answered
  obtain ⟨event, read, rfl⟩ := List.mem_map.mp among
  obtain ⟨entry, declared, same⟩ := wellFormed.known event read
  have number : entry.record.uid = completion.txn := by
    rw [same]
    exact uid
  refine ⟨entry, declared, number, fun bursts => ?_⟩
  have record := Trace.recordAt_of_mem wellFormed declared
  rw [number] at record
  rw [← record] at bursts ⊢
  rw [beats]
  exact tracked.beats_of_answered (Trace.known_history wellFormed) clean answered bursts

/-- Every clean replay of a text that is a trace certifies the trace. -/
theorem certificate_of_isClean (engine : EngineConfig) (config : CheckerConfig)
    {text : List Char} {trace : Trace} (parsed : Trace.parse text = .ok trace)
    (isClean : (trace.replay engine config).summary.isClean = true) :
    Certificate trace (trace.replay engine config).summary := by
  have wellFormed := Trace.parse_wellFormed parsed
  have known := Trace.known_history wellFormed
  have tracked := tracked_of_isClean parsed isClean
  obtain ⟨ended, clean⟩ := ended_and_clean_of_isClean isClean
  obtain ⟨courses, account⟩ := tracked.fitting.exists_account known
  refine ⟨tracked.fitting.requestsApart known, tracked.fitting.answeredInTurn known,
    account.performed_prefix, ?_, ?_, ?_, ?_⟩
  · intro entry member write accepted
    have record := Trace.recordAt_of_mem wellFormed member
    rw [← record] at write
    rw [tracked.fitting.beatsOf_write known clean tracked.once write accepted, record]
  · intro entry member read answered
    have record := Trace.recordAt_of_mem wellFormed member
    rw [← record] at read
    rw [tracked.fitting.beatsOf_read known clean tracked.once read answered, record]
  · intro entry member
    rw [leaked_of_ended ended]
    exact tracked.completed_or_leaked wellFormed member
  · intro completion member
    exact tracked.beats_of_completion wellFormed clean member

def writeAndRead : String :=
  "@0 fw BeginPartialRequest w cmd=write len=1\n" ++
  "@1 bw EndPartialRequest w\n" ++
  "@2 fw BeginRequest w\n" ++
  "@3 bw EndRequest w\n" ++
  "@3 fw BeginRequest r cmd=read\n" ++
  "@4 bw BeginResponse w\n" ++
  "@5 fw EndResponse w\n"

theorem certificate_of_writeAndRead :
    ∃ trace, Trace.parse writeAndRead.toList = .ok trace ∧
      (trace.replay {} {}).summary.isClean = true ∧
        Certificate trace (trace.replay {} {}).summary := by
  have accepted : (Trace.parse writeAndRead.toList).toOption.map
      (fun trace => (trace.replay {} {}).summary.isClean) = some true := by
    decide +kernel
  obtain ⟨trace, parsed, isClean⟩ := Trace.exists_parse_of_toOption accepted
  exact ⟨trace, parsed, isClean, certificate_of_isClean {} {} parsed isClean⟩

end Replay

end Handshake
