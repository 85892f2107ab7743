import Handshake.Proofs.Checker.Account
import Handshake.Proofs.Lifetime
set_option autoImplicit false

/-! Orderly histories. Every transaction runs through its lifetime, request bursts do not
overlap within a command, response beats do not overlap either, and responses begin in
the order of acceptance. Every observation of such a history fits the account of those
before it. -/

namespace Handshake

namespace History

/-- A request phase comes while no other transaction of its command is within its
request. -/
def RequestsApart (before : History) (event : Observation) : Prop :=
  event.phase.isRequest = true →
    ∀ seen ∈ before, seen.phase.isRequest = true →
      seen.record.command = event.record.command → seen.record.uid ≠ event.record.uid →
        .endRequest ∈ before.phasesOf seen.record.uid

/-- Behind the beginning of a response beat comes its own end before any other response
phase of the command. -/
def BeatsApart (before : History) (event : Observation) : Prop :=
  event.phase.isResponse = true →
    ∀ seen ∈ before.latest? event.record.command .response, seen.phase.isBegin = true →
      event.record.uid = seen.record.uid ∧ event.phase.closes? = some seen.phase

def acceptedBefore (history : History) (record : Transaction) : List TxnId :=
  (history.performed .endRequest record.command record.axiId).takeWhile
    (fun other => other ≠ record.uid)

/-- The first response phase of a transaction comes after the responses of all that were
accepted before it. -/
def AnsweredInOrder (before : History) (event : Observation) : Prop :=
  event.phase.isResponse = true →
    (∀ phase ∈ before.phasesOf event.record.uid, phase.isResponse = false) →
      ∀ earlier ∈ before.acceptedBefore event.record, .endResponse ∈ before.phasesOf earlier

instance (before : History) (event : Observation) : Decidable (before.RequestsApart event) :=
  inferInstanceAs (Decidable (_ → ∀ seen ∈ before, _ → _ → _ → _))

instance (before : History) (event : Observation) : Decidable (before.BeatsApart event) :=
  inferInstanceAs (Decidable (_ → ∀ seen ∈ before.latest? event.record.command .response, _))

instance (before : History) (event : Observation) : Decidable (before.AnsweredInOrder event) :=
  inferInstanceAs (Decidable (_ → (∀ phase ∈ before.phasesOf event.record.uid, _) →
    ∀ earlier ∈ before.acceptedBefore event.record, _))

structure Orderly (config : CheckerConfig) (history : History) : Prop where
  lifetimes : ∀ seen ∈ history,
    history.phasesOf seen.record.uid <+: seen.record.lifetime config
  requests : history.Throughout RequestsApart
  beats : history.Throughout BeatsApart
  answers : history.Throughout AnsweredInOrder

variable {config : CheckerConfig} {records : TxnId → Transaction} {before after : History}
  {event : Observation}

/-! ### Lifetimes of prefixes -/

private theorem phasesOf_append (before after : History) (txn : TxnId) :
    (before ++ after).phasesOf txn = before.phasesOf txn ++ after.phasesOf txn := by
  simp only [phasesOf, List.filter_append, List.map_append]

private theorem Orderly.phases_alive (orderly : Orderly config (before ++ event :: after)) :
    before.phasesOf event.record.uid ++ [event.phase] <+: event.record.lifetime config := by
  have whole := orderly.lifetimes event (by simp)
  rw [List.append_cons, phasesOf_append, phasesOf_append_singleton, if_pos rfl] at whole
  exact (List.prefix_append _ _).trans whole

private theorem Orderly.alive (orderly : Orderly config (before ++ after))
    (known : History.Known records (before ++ after)) (txn : TxnId) :
    before.handshakesOf txn <+: (records txn).handshakes := by
  by_cases present : ∃ seen ∈ before ++ after, seen.record.uid = txn
  · obtain ⟨seen, member, rfl⟩ := present
    have whole := (orderly.lifetimes seen member).filter Phase.isHandshake
    rw [Transaction.filter_lifetime] at whole
    have part : before.handshakesOf seen.record.uid <+:
        (before ++ after).handshakesOf seen.record.uid := by
      rw [handshakesOf_append]
      exact List.prefix_append _ _
    rw [known seen member]
    exact part.trans whole
  · have none : before.handshakesOf txn = [] := by
      refine List.eq_nil_iff_forall_not_mem.mpr (fun phase member => present ?_)
      obtain ⟨seen, inBefore, uid, -⟩ := mem_phasesOf.mp (mem_handshakesOf.mp member).1
      exact ⟨seen, List.mem_append_left _ inBefore, uid⟩
    rw [none]
    exact List.nil_prefix

theorem Orderly.handshakes_alive (orderly : Orderly config (before ++ event :: after))
    (handshake : event.phase.isHandshake = true) :
    before.handshakesOf event.record.uid ++ [event.phase] <+: event.record.handshakes := by
  have filtered := orderly.phases_alive.filter Phase.isHandshake
  rw [Transaction.filter_lifetime, List.filter_append,
    List.filter_cons_of_pos handshake] at filtered
  exact filtered

theorem Orderly.acknowledge_of_bare (orderly : Orderly config (before ++ event :: after))
    (bare : event.phase.isHandshake = false) :
    event.phase = .acknowledge ∧ config.ace = true ∧ event.record.snoopOnly = false ∧
      before.phasesOf event.record.uid = event.record.handshakes := by
  obtain ⟨rest, split⟩ := orderly.phases_alive
  rw [List.append_assoc] at split
  obtain ⟨ends, ace, owes, same, -⟩ := Transaction.split_at_bare split.symm bare
  exact ⟨ends, ace, owes, same⟩

private theorem Orderly.isHandshake_of_mem_phasesOf
    (orderly : Orderly config (before ++ event :: after))
    {phase : Phase} (member : phase ∈ before.phasesOf event.record.uid) :
    phase.isHandshake = true := by
  cases bare : phase.isHandshake with
  | true => rfl
  | false =>
      obtain ⟨earlier, later, split⟩ := List.append_of_mem member
      obtain ⟨rest, whole⟩ := orderly.phases_alive
      rw [split, List.append_assoc, List.append_assoc, List.cons_append] at whole
      have ends := (Transaction.split_at_bare whole.symm bare).2.2.2.2
      simp at ends

end History

namespace Checker

variable {config : CheckerConfig} {records : TxnId → Transaction} {history before after : History}
  {courses : TxnId → Course} {event : Observation}

/-! ### Orderly observations fit -/

private theorem Account.not_within_request (account : Account config records before courses)
    (alive : ∀ txn, before.handshakesOf txn <+: (records txn).handshakes)
    (known : History.Known records before) (apart : before.RequestsApart event)
    (request : event.phase.isRequest = true) {other : TxnId}
    (member : (records other).command = event.record.command)
    (different : other ≠ event.record.uid) :
    (courses other).state.within .request = false := by
  cases within : (courses other).state.within .request with
  | false => rfl
  | true =>
      obtain ⟨phase, among, asks⟩ := Course.exists_isRequest (account.follows other) within
      obtain ⟨seen, inBefore, rfl, rfl⟩ :=
        History.mem_phasesOf.mp (History.mem_handshakesOf.mp among).1
      have ended := apart request seen inBefore asks
        (by rw [← known seen inBefore]; exact member) different
      have outside := Course.not_within_request_of_mem (alive seen.record.uid)
        (account.follows seen.record.uid) (History.mem_handshakesOf.mpr ⟨ended, rfl⟩)
      rw [outside] at within
      cases within

private theorem Account.inPlace_of_orderly (account : Account config records before courses)
    (alive : ∀ txn, before.handshakesOf txn <+: (records txn).handshakes)
    (known : History.Known records before) (own : records event.record.uid = event.record)
    (requests : before.RequestsApart event) (beats : before.BeatsApart event)
    {next : Course} (step : (courses event.record.uid).step event.phase = some next) :
    (((new config).observeAll before).trackers.get event.record.command).InPlace
      event.phase := by
  intro side on
  have here := (Course.openPhase?_step step on).1
  have agrees := account.agrees event.record.command
  cases closes : event.phase.closes? with
  | some opened =>
      rw [closes] at here
      exact (agrees.opened side opened).mpr ⟨event.record.uid, by rw [own], here⟩
  | none =>
      rw [closes] at here
      cases side with
      | request =>
          cases opened : (((new config).observeAll before).trackers.get
              event.record.command).phaseOn .request with
          | none => rfl
          | some earlier =>
              obtain ⟨other, member, openThere⟩ := (agrees.opened .request earlier).mp opened
              have different : other ≠ event.record.uid := by
                rintro rfl
                rw [here] at openThere
                cases openThere
              have outside := account.not_within_request alive known requests
                (Phase.isRequest_of_side? on) member different
              rw [State.within_of_openPhase? openThere] at outside
              cases outside
      | response =>
          rw [phaseOn_observeAll]
          cases latest : before.latest? event.record.command .response with
          | none => rfl
          | some seen =>
              cases begins : seen.phase.isBegin with
              | false =>
                  rw [Option.bind_some, Phase.opens?, begins]
                  rfl
              | true =>
                  have matched := (beats (Phase.isResponse_of_side? on) seen latest begins).2
                  rw [closes] at matched
                  cases matched

private theorem Account.head_of_orderly (account : Account config records before courses)
    (alive : ∀ txn, before.handshakesOf txn <+: (records txn).handshakes)
    (own : records event.record.uid = event.record)
    (answers : before.AnsweredInOrder event) (response : event.phase.isResponse = true)
    (bare : ∀ phase ∈ before.phasesOf event.record.uid, phase.isHandshake = true)
    (waits : (courses event.record.uid).state = .waitForResponse) :
    ((((new config).observeAll before).trackers.get event.record.command).queue
      event.record.axiId).head? = some event.record.uid := by
  have agrees := account.agrees event.record.command
  have fresh : ∀ phase ∈ before.phasesOf event.record.uid, phase.isResponse = false := by
    intro phase member
    exact Course.isRequest_of_waitForResponse (alive event.record.uid)
      (account.follows event.record.uid) waits phase
      (History.mem_handshakesOf.mpr ⟨member, bare phase member⟩)
  have accepted : event.record.uid ∈
      (((new config).observeAll before).trackers.get event.record.command).queue
        event.record.axiId := by
    rw [Tracker.mem_queue, agrees.accepted, own, waits]
    exact ⟨rfl, rfl, rfl⟩
  cases queue : (((new config).observeAll before).trackers.get event.record.command).queue
      event.record.axiId with
  | nil =>
      rw [queue] at accepted
      cases accepted
  | cons first rest =>
      by_cases same : first = event.record.uid
      · rw [same]
        rfl
      · -- the first in the queue was accepted before and is still not answered
        have unanswered : ∀ other ∈ before.performed .endResponse event.record.command
            event.record.axiId, other ≠ event.record.uid := by
          intro other member equal
          rw [equal] at member
          have answered := fresh .endResponse (History.mem_phasesOf_of_mem_performed member)
          cases answered
        have ahead : first ∈ before.acceptedBefore event.record := by
          rw [History.acceptedBefore, account.queues, queue,
            List.takeWhile_append_of_pos (by simpa using unanswered),
            List.takeWhile_cons_of_pos (by simpa using same)]
          simp
        have ended := answers response fresh first ahead
        have waiting := ((agrees.accepted _).mp (Tracker.mem_queue.mp (by
          rw [queue]
          exact List.mem_cons_self))).2.2
        have unaccepted := Course.not_isAccepted_of_mem (alive first) (account.follows first)
          (History.mem_handshakesOf.mpr ⟨ended, rfl⟩)
        rw [unaccepted] at waiting
        cases waiting

theorem Account.fits_of_orderly (account : Account config records before courses)
    (orderly : History.Orderly config (before ++ event :: after))
    (known : History.Known records (before ++ event :: after)) :
    ((new config).observeAll before).Fits courses event := by
  have alive := orderly.alive known
  have own : records event.record.uid = event.record := known event (by simp)
  have requests := orderly.requests before event after rfl
  have steps : event.phase.isHandshake = true →
      ∃ next, (courses event.record.uid).step event.phase = some next := fun handshake =>
    Course.step_of_lifetime (orderly.handshakes_alive handshake)
      (account.follows event.record.uid)
  refine ⟨?_, steps, ?_, ?_⟩
  · intro side on
    obtain ⟨next, step⟩ := steps ((Phase.side?_isSome_iff _).mp (Option.isSome_of_eq_some on))
    exact account.inPlace_of_orderly alive known.of_append own requests
      (orderly.beats before event after rfl) step side on
  · intro request idle
    cases flight : (((new config).observeAll before).trackers.get
        event.record.command).openBurst with
    | none => rfl
    | some burst =>
        obtain ⟨member, -, within⟩ :=
          ((account.agrees event.record.command).burst burst).mp flight
        have different : burst.owner ≠ event.record.uid := by
          intro same
          rw [same, idle] at within
          cases within
        rw [account.not_within_request alive known.of_append requests request member different]
          at within
        cases within
  · intro response waits
    exact account.head_of_orderly alive own (orderly.answers before event after rfl) response
      (fun phase => orderly.isHandshake_of_mem_phasesOf) waits

end Checker

end Handshake
