import Handshake.Proofs.Checker.Orderly
import Handshake.Proofs.OneLife
set_option autoImplicit false

/-! What a clean history of courses guarantees: bursts of one command do not overlap,
responses come in the order of acceptance, and every burst that was checked has the
beats that its length field announces. -/

namespace Handshake

def Phase.endsBeat (phase : Phase) : Side → Bool
  | .request => phase = .endPartialRequest || phase = .endRequest
  | .response => phase = .endPartialResponse || phase = .endResponse

private theorem mem_of_mem_takeWhile {α : Type} {keep : α → Bool} {before after : List α}
    {stop item : α} (stops : keep stop = false)
    (member : item ∈ (before ++ stop :: after).takeWhile keep) : item ∈ before := by
  induction before with
  | nil =>
      rw [List.nil_append, List.takeWhile_cons_of_neg (by simp [stops])] at member
      cases member
  | cons first rest ih =>
      cases kept : keep first with
      | false =>
          rw [List.cons_append, List.takeWhile_cons_of_neg (by simp [kept])] at member
          cases member
      | true =>
          rw [List.cons_append, List.takeWhile_cons_of_pos kept] at member
          rcases List.mem_cons.mp member with rfl | inside
          · exact List.mem_cons_self
          · exact List.mem_cons_of_mem _ (ih inside)

namespace History

/-- A response phase is of an accepted transaction and comes after the responses of all
that were accepted before it. -/
def AnsweredInTurn (before : History) (event : Observation) : Prop :=
  event.phase.isResponse = true →
    .endRequest ∈ before.phasesOf event.record.uid ∧
      ∀ earlier ∈ before.acceptedBefore event.record, .endResponse ∈ before.phasesOf earlier

def LivesOnce (before : History) (event : Observation) : Prop :=
  event.phase.isHandshake = true → .endResponse ∉ before.phasesOf event.record.uid

def beatsOf (history : History) (txn : TxnId) (side : Side) : Nat :=
  (history.phasesOf txn).countP (fun phase => phase.endsBeat side)

private theorem endResponse_notMem_dropLast {history : History}
    (once : history.Throughout LivesOnce) (txn : TxnId) :
    .endResponse ∉ (history.handshakesOf txn).dropLast := by
  induction history using List.reverseRecOn with
  | nil => exact List.not_mem_nil
  | append_singleton before event ih =>
      obtain ⟨earlier, last⟩ := throughout_append_singleton.mp once
      rw [handshakesOf_append_singleton]
      by_cases own : event.record.uid = txn ∧ event.phase.isHandshake = true
      · rw [if_pos own, List.dropLast_concat, ← own.1]
        exact fun member => last own.2 (mem_handshakesOf.mp member).1
      · rw [if_neg own, List.append_nil]
        exact ih earlier

private theorem countP_eq_count_add_count {first second : Phase} (different : first ≠ second)
    (phases : List Phase) :
    phases.countP (fun phase => phase = first || phase = second) =
      phases.count first + phases.count second := by
  induction phases with
  | nil => rfl
  | cons phase rest ih =>
      rw [List.countP_cons, List.count_cons, List.count_cons, ih]
      by_cases atFirst : phase = first
      · simp [atFirst, different]
        omega
      · by_cases atSecond : phase = second
        · simp [atSecond, Ne.symm different]
          omega
        · simp [atFirst, atSecond]

private theorem beatsOf_request (history : History) (txn : TxnId) :
    history.beatsOf txn .request =
      (history.handshakesOf txn).count .endPartialRequest +
        (history.handshakesOf txn).count .endRequest := by
  rw [handshakesOf, List.count_filter rfl, List.count_filter rfl]
  exact countP_eq_count_add_count (by decide) _

private theorem beatsOf_response (history : History) (txn : TxnId) :
    history.beatsOf txn .response =
      (history.handshakesOf txn).count .endPartialResponse +
        (history.handshakesOf txn).count .endResponse := by
  rw [handshakesOf, List.count_filter rfl, List.count_filter rfl]
  exact countP_eq_count_add_count (by decide) _

end History

namespace Checker

variable {config : CheckerConfig} {records : TxnId → Transaction} {history before : History}
  {courses : TxnId → Course} {event : Observation}

/-! ### Order -/

private theorem Account.requestsApart (account : Account config records before courses)
    (known : History.Known records before) (own : records event.record.uid = event.record)
    (fits : ((new config).observeAll before).Fits courses event) :
    before.RequestsApart event := by
  intro request seen member asks sameCommand different
  by_contra unended
  have agrees := account.agrees event.record.command
  have unendedHandshakes : Phase.endRequest ∉ History.handshakesOf before seen.record.uid :=
    fun among => unended (History.mem_handshakesOf.mp among).1
  have asked : seen.phase ∈ before.handshakesOf seen.record.uid :=
    History.mem_handshakesOf.mpr ⟨History.mem_phasesOf.mpr ⟨seen, member, rfl, rfl⟩,
      by rw [Phase.isHandshake, asks, Bool.true_or]⟩
  -- the other transaction holds the burst in flight
  have within : (courses seen.record.uid).state.within .request = true := by
    rcases Course.within_request_of_walk (account.follows seen.record.uid) unendedHandshakes with
      nothing | within
    · rw [nothing] at asked
      cases asked
    · exact within
  have flight := (agrees.burst ⟨seen.record.axiId, seen.record.uid⟩).mpr
    ⟨by rw [known seen member]; exact sameCommand, by rw [known seen member], within⟩
  obtain ⟨next, step⟩ := fits.step (by rw [Phase.isHandshake, request, Bool.true_or])
  by_cases idle : (courses event.record.uid).state = .idle
  · rw [fits.vacant request idle] at flight
    cases flight
  · have inside : (courses event.record.uid).state.within .request = true := by
      rw [Course.within_request_of_step step, request]
      simp [idle]
    have own' := (agrees.burst ⟨event.record.axiId, event.record.uid⟩).mpr
      ⟨by rw [own], by rw [own], inside⟩
    rw [flight, Option.some.injEq, Burst.mk.injEq] at own'
    exact different own'.2

private theorem Account.answeredInTurn (account : Account config records before courses)
    (own : records event.record.uid = event.record)
    (fits : ((new config).observeAll before).Fits courses event) :
    before.AnsweredInTurn event := by
  intro response
  obtain ⟨next, step⟩ := fits.step (by rw [Phase.isHandshake, response, Bool.or_true])
  have accepted : (courses event.record.uid).state.isAccepted = true := by
    rw [(Course.isAccepted_step step).1]
    exact response
  have ended := Course.mem_of_isAccepted (account.follows event.record.uid) accepted
  refine ⟨(History.mem_handshakesOf.mp ended).1, fun earlier ahead => ?_⟩
  have head : ((((new config).observeAll before).trackers.get event.record.command).queue
      event.record.axiId).head? = some event.record.uid := by
    by_cases waits : (courses event.record.uid).state = .waitForResponse
    · exact fits.inTurn response waits
    · have within : (courses event.record.uid).state.within .response = true := by
        rw [Course.within_response_of_step step, response]
        simp [waits]
      have first := (account.agrees event.record.command).first event.record.uid
        (by rw [own]) within
      rw [own] at first
      exact first
  obtain ⟨rest, queue⟩ := List.head?_eq_some_iff.mp head
  rw [History.acceptedBefore, account.queues, queue] at ahead
  exact History.mem_phasesOf_of_mem_performed (mem_of_mem_takeWhile (by simp) ahead)

theorem Account.performed_prefix (account : Account config records history courses)
    (command : Command) (axiId : Nat) :
    history.performed .endResponse command axiId <+:
      history.performed .endRequest command axiId := by
  rw [account.queues]
  exact List.prefix_append _ _

/-! ### Beats -/

private theorem Account.count_at_endRequest (account : Account config records before courses)
    (own : records event.record.uid = event.record)
    (fits : ((new config).observeAll before).Fits courses event)
    (clean : ((new config).observeAll before).breaches event.phase event.record = [])
    (once : before.LivesOnce event) (ends : event.phase = .endRequest)
    (write : event.record.isWrite = true) :
    (before.handshakesOf event.record.uid).count .endPartialRequest = event.record.length := by
  obtain ⟨phase, record⟩ := event
  obtain rfl : phase = .endRequest := ends
  obtain ⟨next, step⟩ := fits.step rfl
  have within : (courses record.uid).state.within .request = true := by
    rw [Course.within_request_of_step step]
    cases idle : (courses record.uid).state with
    | idle => rcases Course.begins_of_idle idle step with equal | equal <;> cases equal
    | _ => rfl
  have counted := (account.agrees record.command).beats .request record.uid (by rw [own])
  rw [Course.beats?, if_pos within] at counted
  have tracked : (((new config).observeAll before).trackers.get
      record.command).requestBeats.get? record.uid =
        some (courses record.uid).requestBeats := counted
  have ruled := (Tracker.breaches_observe_endRequest fits.inPlace).mp
    (observe_breaches_eq_nil clean) write
  rw [tracked, Option.getD_some] at ruled
  rw [← (Course.beats_of_walk (account.follows record.uid)
    (fun member => once rfl
      (History.mem_handshakesOf.mp (List.dropLast_subset _ member)).1)).1]
  exact ruled.1

private theorem Account.count_at_endResponse (account : Account config records before courses)
    (own : records event.record.uid = event.record)
    (fits : ((new config).observeAll before).Fits courses event)
    (clean : ((new config).observeAll before).breaches event.phase event.record = [])
    (once : before.LivesOnce event) (ends : event.phase = .endResponse)
    (read : event.record.isRead = true) :
    (before.handshakesOf event.record.uid).count .endPartialResponse = event.record.length := by
  obtain ⟨phase, record⟩ := event
  obtain rfl : phase = .endResponse := ends
  obtain ⟨next, step⟩ := fits.step rfl
  have within := Course.within_response_of_endResponse step
  have counted := (account.agrees record.command).beats .response record.uid (by rw [own])
  rw [Course.beats?, if_pos within] at counted
  have tracked : (((new config).observeAll before).trackers.get
      record.command).responseBeats.get? record.uid =
        some (courses record.uid).responseBeats := counted
  have ruled := (Tracker.breaches_observe_endResponse fits.inPlace).mp
    (observe_breaches_eq_nil clean) read
  rw [tracked, Option.getD_some] at ruled
  rw [← (Course.beats_of_walk (account.follows record.uid)
    (fun member => once rfl
      (History.mem_handshakesOf.mp (List.dropLast_subset _ member)).1)).2]
  exact ruled.1

namespace Fitting

variable {txn : TxnId}

private theorem commandBreaches_of_mem (known : History.Known records history)
    (clean : Clean config history) {phase : Phase} (member : phase ∈ history.handshakesOf txn) :
    commandBreaches (records txn) phase = [] := by
  obtain ⟨seen, inside, rfl, rfl⟩ :=
    History.mem_phasesOf.mp (History.mem_handshakesOf.mp member).1
  obtain ⟨before, after, split⟩ := List.append_of_mem inside
  have quiet := clean_iff_throughout.mp clean before seen after split
  simp only [breaches, List.append_eq_nil_iff] at quiet
  rw [known seen inside]
  exact quiet.1.1.1

theorem count_endPartialRequest (known : History.Known records history)
    (clean : Clean config history) (follows : history.Follows courses)
    (notWrite : (records txn).isWrite = false) :
    (history.handshakesOf txn).count .endPartialRequest = 0 := by
  refine List.count_eq_zero.mpr (fun ended => ?_)
  have begun := Course.opened_mem (follows txn) rfl rfl ended
  have quiet := commandBreaches_of_mem known clean begun
  simp [commandBreaches, notWrite] at quiet

theorem count_endPartialResponse (known : History.Known records history)
    (clean : Clean config history) (follows : history.Follows courses)
    (notRead : (records txn).isRead = false) :
    (history.handshakesOf txn).count .endPartialResponse = 0 := by
  refine List.count_eq_zero.mpr (fun ended => ?_)
  have begun := Course.opened_mem (follows txn) rfl rfl ended
  have quiet := commandBreaches_of_mem known clean begun
  simp [commandBreaches, notRead] at quiet

theorem counts_of_write (fitting : Fitting config records history)
    (known : History.Known records history) (clean : Clean config history)
    (once : history.Throughout History.LivesOnce) (write : (records txn).isWrite = true)
    (ended : .endRequest ∈ history.handshakesOf txn) :
    (history.handshakesOf txn).count .endPartialRequest = (records txn).length ∧
      (history.handshakesOf txn).count .endRequest = 1 := by
  obtain ⟨seen, member, rfl, phase⟩ :=
    History.mem_phasesOf.mp (History.mem_handshakesOf.mp ended).1
  have own := known seen member
  obtain ⟨courses, account⟩ := fitting.exists_account known
  obtain ⟨before, after, split⟩ := List.append_of_mem member
  obtain ⟨standing, earlier, fits⟩ := fitting.account_before known split
  rw [own] at write
  have atEnd := earlier.count_at_endRequest own fits
    (clean_iff_throughout.mp clean before seen after split) (once before seen after split)
    phase write
  have whole : history.handshakesOf seen.record.uid =
      History.handshakesOf before seen.record.uid ++
        .endRequest :: History.handshakesOf after seen.record.uid := by
    rw [split, History.handshakesOf_append_cons _ _ (by rw [phase]; rfl), phase]
  have walk := account.follows seen.record.uid
  have lives := History.endResponse_notMem_dropLast once seen.record.uid
  rw [whole] at walk lives
  have later := Course.isRequest_after_endRequest walk lives
  have noneBefore : Phase.endRequest ∉ History.handshakesOf before seen.record.uid := by
    intro again
    obtain ⟨first, rest, early⟩ := List.append_of_mem again
    rw [early, List.append_assoc, List.cons_append] at walk lives
    have second := Course.isRequest_after_endRequest walk lives .endRequest (by simp)
    cases second
  have noEnd : (History.handshakesOf after seen.record.uid).count .endRequest = 0 :=
    List.count_eq_zero.mpr (fun inside => by cases later _ inside)
  have noPartial : (History.handshakesOf after seen.record.uid).count .endPartialRequest = 0 :=
    List.count_eq_zero.mpr (fun inside => by cases later _ inside)
  rw [whole, own, List.count_append, List.count_append, List.count_cons_of_ne (by simp),
    List.count_cons_self, noEnd, noPartial, atEnd, List.count_eq_zero.mpr noneBefore]
  exact ⟨rfl, rfl⟩

theorem counts_of_read (fitting : Fitting config records history)
    (known : History.Known records history) (clean : Clean config history)
    (once : history.Throughout History.LivesOnce) (read : (records txn).isRead = true)
    (ended : .endResponse ∈ history.handshakesOf txn) :
    (history.handshakesOf txn).count .endPartialResponse = (records txn).length ∧
      (history.handshakesOf txn).count .endResponse = 1 := by
  obtain ⟨seen, member, rfl, phase⟩ :=
    History.mem_phasesOf.mp (History.mem_handshakesOf.mp ended).1
  have own := known seen member
  obtain ⟨before, after, split⟩ := List.append_of_mem member
  obtain ⟨standing, earlier, fits⟩ := fitting.account_before known split
  rw [own] at read
  have atEnd := earlier.count_at_endResponse own fits
    (clean_iff_throughout.mp clean before seen after split) (once before seen after split)
    phase read
  have whole : history.handshakesOf seen.record.uid =
      History.handshakesOf before seen.record.uid ++
        .endResponse :: History.handshakesOf after seen.record.uid := by
    rw [split, History.handshakesOf_append_cons _ _ (by rw [phase]; rfl), phase]
  have noneBefore : Phase.endResponse ∉ History.handshakesOf before seen.record.uid :=
    fun inside => once before seen after split (by rw [phase]; rfl)
      (History.mem_handshakesOf.mp inside).1
  have lives := History.endResponse_notMem_dropLast once seen.record.uid
  rw [whole, List.dropLast_append_of_ne_nil (List.cons_ne_nil _ _), List.mem_append,
    not_or] at lives
  have last : History.handshakesOf after seen.record.uid = [] := by
    cases rest : History.handshakesOf after seen.record.uid with
    | nil => rfl
    | cons first more =>
        rw [rest] at lives
        exact absurd (by simp) lives.2
  rw [whole, own, last, List.count_append, List.count_append, List.count_cons_of_ne (by simp),
    List.count_cons_self, atEnd, List.count_eq_zero.mpr noneBefore]
  exact ⟨rfl, rfl⟩

/-! ### The whole history -/

theorem requestsApart (fitting : Fitting config records history)
    (known : History.Known records history) : history.Throughout History.RequestsApart := by
  rintro before event after rfl
  obtain ⟨courses, account, fits⟩ := fitting.account_before known rfl
  exact account.requestsApart known.of_append (known event (by simp)) fits

theorem answeredInTurn (fitting : Fitting config records history)
    (known : History.Known records history) : history.Throughout History.AnsweredInTurn := by
  rintro before event after rfl
  obtain ⟨courses, account, fits⟩ := fitting.account_before known rfl
  exact account.answeredInTurn (known event (by simp)) fits

theorem beatsOf_write (fitting : Fitting config records history)
    (known : History.Known records history) (clean : Clean config history)
    (once : history.Throughout History.LivesOnce) (write : (records txn).isWrite = true)
    (ended : .endRequest ∈ history.phasesOf txn) :
    history.beatsOf txn .request = (records txn).beats := by
  obtain ⟨partials, last⟩ := fitting.counts_of_write known clean once write
    (History.mem_handshakesOf.mpr ⟨ended, rfl⟩)
  rw [History.beatsOf_request, partials, last]
  rfl

theorem beatsOf_read (fitting : Fitting config records history)
    (known : History.Known records history) (clean : Clean config history)
    (once : history.Throughout History.LivesOnce) (read : (records txn).isRead = true)
    (ended : .endResponse ∈ history.phasesOf txn) :
    history.beatsOf txn .response = (records txn).beats := by
  obtain ⟨partials, last⟩ := fitting.counts_of_read known clean once read
    (History.mem_handshakesOf.mpr ⟨ended, rfl⟩)
  rw [History.beatsOf_response, partials, last]
  rfl

end Fitting

end Checker

end Handshake
