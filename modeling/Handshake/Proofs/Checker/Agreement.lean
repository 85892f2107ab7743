import Mathlib.Logic.Function.Basic
import Handshake.Proofs.Checker.Tracker
set_option autoImplicit false

/-! How a tracker, which keeps one set of tables for its whole command, accounts for the
courses of the single transactions. The account is kept by every phase that is in place,
is a step of its own transaction, begins no request inside the burst of another, and
begins a response only of the first transaction in its queue. -/

namespace Handshake

namespace Tracker

/-- A tracker is an account of the courses of the transactions of its command. -/
structure Agrees (tracker : Tracker) (command : Command) (records : TxnId → Transaction)
    (courses : TxnId → Course) : Prop where
  opened : ∀ side phase, tracker.phaseOn side = some phase ↔
    ∃ txn, (records txn).command = command ∧ (courses txn).state.openPhase? side = some phase
  alone : ∀ side one other phase again,
    (records one).command = command → (courses one).state.openPhase? side = some phase →
      (records other).command = command → (courses other).state.openPhase? side = some again →
        one = other
  beats : ∀ side txn, (records txn).command = command →
    (tracker.beatsOn side).get? txn = (courses txn).beats? side
  burst : ∀ burst, tracker.openBurst = some burst ↔
    (records burst.owner).command = command ∧ (records burst.owner).axiId = burst.axiId ∧
      (courses burst.owner).state.within .request = true
  accepted : ∀ acceptance, acceptance ∈ tracker.accepted ↔
    (records acceptance.txn).command = command ∧
      (records acceptance.txn).axiId = acceptance.axiId ∧
        (courses acceptance.txn).state.isAccepted = true
  waiting : ∀ axiId, (tracker.queue axiId).Nodup
  first : ∀ txn, (records txn).command = command →
    (courses txn).state.within .response = true →
      (tracker.queue (records txn).axiId).head? = some txn

theorem agrees_empty (command : Command) (records : TxnId → Transaction) :
    empty.Agrees command records (fun _ => .start) where
  opened := by
    intro side phase
    cases side <;> simp [empty, phaseOn, Course.start, State.openPhase?]
  alone := by
    intro side one other phase again own opened
    cases side <;> cases opened
  beats := by intro side txn own; cases side <;> rfl
  burst := by
    intro burst
    simp [empty, Course.start, State.within]
  accepted := by
    intro acceptance
    simp [empty, Course.start, State.isAccepted]
  waiting := fun _ => List.nodup_nil
  first := by intro txn own within; cases within

namespace Agrees

variable {tracker : Tracker} {command : Command} {records : TxnId → Transaction}
  {courses : TxnId → Course} {txn : Transaction} {phase : Phase} {next : Course}

theorem congr {changed : TxnId → Course} (agrees : tracker.Agrees command records courses)
    (same : ∀ txn, (records txn).command = command → changed txn = courses txn) :
    tracker.Agrees command records changed where
  opened := by
    intro side phase
    rw [agrees.opened]
    constructor
    · intro ⟨txn, own, opened⟩
      exact ⟨txn, own, by rw [same txn own]; exact opened⟩
    · intro ⟨txn, own, opened⟩
      exact ⟨txn, own, by rw [← same txn own]; exact opened⟩
  alone := by
    intro side one other phase again ownOne openOne ownOther openOther
    rw [same one ownOne] at openOne
    rw [same other ownOther] at openOther
    exact agrees.alone side one other phase again ownOne openOne ownOther openOther
  beats := by
    intro side txn own
    rw [same txn own]
    exact agrees.beats side txn own
  burst := by
    intro burst
    rw [agrees.burst]
    refine and_congr_right (fun own => ?_)
    rw [same burst.owner own]
  accepted := by
    intro acceptance
    rw [agrees.accepted]
    refine and_congr_right (fun own => ?_)
    rw [same acceptance.txn own]
  waiting := agrees.waiting
  first := by
    intro txn own within
    rw [same txn own] at within
    exact agrees.first txn own within

/-! ### One phase -/

theorem closed_elsewhere (agrees : tracker.Agrees command records courses)
    (known : records txn.uid = txn) (own : txn.command = command)
    (inPlace : tracker.InPlace phase) (step : (courses txn.uid).step phase = some next)
    {side : Side} (on : phase.side? = some side) {other : TxnId} (different : other ≠ txn.uid)
    (member : (records other).command = command) :
    (courses other).state.openPhase? side = none := by
  cases opened : (courses other).state.openPhase? side with
  | none => rfl
  | some earlier =>
      have onTracker : tracker.phaseOn side = some earlier :=
        (agrees.opened side earlier).mpr ⟨other, member, opened⟩
      have here : (courses txn.uid).state.openPhase? side = some earlier := by
        rw [(Course.openPhase?_step step on).1, ← inPlace side on, onTracker]
      exact absurd
        (agrees.alone side other txn.uid earlier earlier member opened (by rw [known, own]) here)
        different

private theorem observe_opened (agrees : tracker.Agrees command records courses)
    (known : records txn.uid = txn) (own : txn.command = command)
    (inPlace : tracker.InPlace phase) (step : (courses txn.uid).step phase = some next)
    (side : Side) (seen : Phase) :
    (tracker.observe txn phase).tracker.phaseOn side = some seen ↔
      ∃ other, (records other).command = command ∧
        (Function.update courses txn.uid next other).state.openPhase? side = some seen := by
  have here : (records txn.uid).command = command := by rw [known, own]
  rw [phaseOn_observe]
  by_cases on : phase.side? = some side
  · rw [if_pos on, ← (Course.openPhase?_step step on).2]
    constructor
    · intro opened
      exact ⟨txn.uid, here, by rw [Function.update_self]; exact opened⟩
    · intro ⟨other, member, opened⟩
      by_cases same : other = txn.uid
      · rw [same, Function.update_self] at opened
        exact opened
      · rw [Function.update_of_ne same,
          agrees.closed_elsewhere known own inPlace step on same member] at opened
        cases opened
  · obtain ⟨before, after⟩ := Course.openPhase?_step_of_ne step on
    rw [if_neg on, agrees.opened]
    constructor
    · intro ⟨other, member, opened⟩
      have different : other ≠ txn.uid := by
        intro same
        rw [same, before] at opened
        cases opened
      exact ⟨other, member, by rw [Function.update_of_ne different]; exact opened⟩
    · intro ⟨other, member, opened⟩
      have different : other ≠ txn.uid := by
        intro same
        rw [same, Function.update_self, after] at opened
        cases opened
      rw [Function.update_of_ne different] at opened
      exact ⟨other, member, opened⟩

private theorem observe_alone (agrees : tracker.Agrees command records courses)
    (known : records txn.uid = txn) (own : txn.command = command)
    (inPlace : tracker.InPlace phase) (step : (courses txn.uid).step phase = some next)
    {side : Side} {one other : TxnId} {seen again : Phase}
    (ownOne : (records one).command = command)
    (openOne : (Function.update courses txn.uid next one).state.openPhase? side = some seen)
    (ownOther : (records other).command = command)
    (openOther :
      (Function.update courses txn.uid next other).state.openPhase? side = some again) :
    one = other := by
  by_cases on : phase.side? = some side
  · -- every open transaction is the one that just moved
    have only : ∀ moved found, (records moved).command = command →
        (Function.update courses txn.uid next moved).state.openPhase? side = some found →
          moved = txn.uid := by
      intro moved found member opened
      by_cases same : moved = txn.uid
      · exact same
      · rw [Function.update_of_ne same,
          agrees.closed_elsewhere known own inPlace step on same member] at opened
        cases opened
    exact (only one seen ownOne openOne).trans (only other again ownOther openOther).symm
  · have after := (Course.openPhase?_step_of_ne step on).2
    have differs : ∀ moved found,
        (Function.update courses txn.uid next moved).state.openPhase? side = some found →
          moved ≠ txn.uid := by
      intro moved found opened same
      rw [same, Function.update_self, after] at opened
      cases opened
    have apartOne := differs one seen openOne
    have apartOther := differs other again openOther
    rw [Function.update_of_ne apartOne] at openOne
    rw [Function.update_of_ne apartOther] at openOther
    exact agrees.alone side one other seen again ownOne openOne ownOther openOther

private theorem observe_beats (agrees : tracker.Agrees command records courses)
    (inPlace : tracker.InPlace phase) (step : (courses txn.uid).step phase = some next)
    (side : Side) {other : TxnId} (member : (records other).command = command) :
    ((tracker.observe txn phase).tracker.beatsOn side).get? other =
      (Function.update courses txn.uid next other).beats? side := by
  by_cases same : other = txn.uid
  · rw [same] at member ⊢
    rw [Function.update_self]
    by_cases on : phase.side? = some side
    · rw [get?_beatsOn_observe_self inPlace on, Course.beats?_step step on,
        agrees.beats side txn.uid member]
    · rw [beatsOn_observe_of_side?_ne tracker txn on, Course.beats?_step_of_ne step on,
        agrees.beats side txn.uid member]
  · rw [Function.update_of_ne same, get?_beatsOn_observe_of_ne tracker txn phase side same,
      agrees.beats side other member]

private theorem observe_burst_of_idle (agrees : tracker.Agrees command records courses)
    (known : records txn.uid = txn) (own : txn.command = command)
    (inPlace : tracker.InPlace phase) (step : (courses txn.uid).step phase = some next)
    (idle : (courses txn.uid).state = .idle) (unused : tracker.openBurst = none)
    (burst : Burst) :
    (tracker.observe txn phase).tracker.openBurst = some burst ↔
      (records burst.owner).command = command ∧ (records burst.owner).axiId = burst.axiId ∧
        (Function.update courses txn.uid next burst.owner).state.within .request = true := by
  have begins := Course.begins_of_idle idle step
  have inside : next.state.within .request = true := by
    rw [Course.within_request_step step]
    rcases begins with rfl | rfl <;> rfl
  have fresh : tracker.requestBeats.get? txn.uid = none := by
    have counted := agrees.beats .request txn.uid (by rw [known, own])
    rw [Course.beats?, idle] at counted
    exact counted
  rw [openBurst_observe_of_fresh inPlace begins fresh unused, Option.some.injEq]
  by_cases same : burst.owner = txn.uid
  · rw [same, Function.update_self, known]
    constructor
    · rintro rfl
      exact ⟨own, rfl, inside⟩
    · rintro ⟨-, axiId, -⟩
      cases burst
      exact congrArg₂ Burst.mk axiId same.symm
  · rw [Function.update_of_ne same, ← agrees.burst, unused]
    refine ⟨fun equal => absurd (congrArg Burst.owner equal).symm same, fun equal => ?_⟩
    cases equal

private theorem observe_burst_of_busy (agrees : tracker.Agrees command records courses)
    (known : records txn.uid = txn) (own : txn.command = command)
    (inPlace : tracker.InPlace phase) (step : (courses txn.uid).step phase = some next)
    (busy : phase.isRequest = true → (courses txn.uid).state ≠ .idle)
    (early : phase ≠ .endRequest) (burst : Burst) :
    (tracker.observe txn phase).tracker.openBurst = some burst ↔
      (records burst.owner).command = command ∧ (records burst.owner).axiId = burst.axiId ∧
        (Function.update courses txn.uid next burst.owner).state.within .request = true := by
  have kept : next.state.within .request = (courses txn.uid).state.within .request := by
    rw [Course.within_request_step step, Course.within_request_of_step step]
    cases request : phase.isRequest with
    | false => rfl
    | true => simp [busy request, early]
  have counted : phase = .beginPartialRequest ∨ phase = .beginRequest →
      (tracker.requestBeats.get? txn.uid).isSome = true := by
    intro begins
    have request : phase.isRequest = true := by rcases begins with rfl | rfl <;> rfl
    have inside : (courses txn.uid).state.within .request = true := by
      rw [Course.within_request_of_step step, request]
      simp [busy request]
    have counts := agrees.beats .request txn.uid (by rw [known, own])
    rw [Course.beats?, if_pos inside] at counts
    exact Option.isSome_of_eq_some counts
  rw [openBurst_observe_of_counted inPlace counted early, agrees.burst]
  by_cases same : burst.owner = txn.uid
  · rw [same, Function.update_self, kept]
  · rw [Function.update_of_ne same]

private theorem observe_burst (agrees : tracker.Agrees command records courses)
    (known : records txn.uid = txn) (own : txn.command = command)
    (inPlace : tracker.InPlace phase) (step : (courses txn.uid).step phase = some next)
    (vacant : phase.isRequest = true → (courses txn.uid).state = .idle →
      tracker.openBurst = none) (burst : Burst) :
    (tracker.observe txn phase).tracker.openBurst = some burst ↔
      (records burst.owner).command = command ∧ (records burst.owner).axiId = burst.axiId ∧
        (Function.update courses txn.uid next burst.owner).state.within .request = true := by
  by_cases last : phase = .endRequest
  · subst last
    have after := Course.within_request_step step
    rw [openBurst_observe_endRequest inPlace, Option.filter_eq_some_iff, agrees.burst]
    by_cases same : burst.owner = txn.uid
    · simp [same, after]
    · simp [same]
  · by_cases first : phase.isRequest = true ∧ (courses txn.uid).state = .idle
    · exact agrees.observe_burst_of_idle known own inPlace step first.2
        (vacant first.1 first.2) burst
    · exact agrees.observe_burst_of_busy known own inPlace step
        (fun request idle => first ⟨request, idle⟩) last burst

private theorem observe_accepted (agrees : tracker.Agrees command records courses)
    (known : records txn.uid = txn) (own : txn.command = command)
    (inPlace : tracker.InPlace phase) (step : (courses txn.uid).step phase = some next)
    (acceptance : Acceptance) :
    acceptance ∈ (tracker.observe txn phase).tracker.accepted ↔
      (records acceptance.txn).command = command ∧
        (records acceptance.txn).axiId = acceptance.axiId ∧
          (Function.update courses txn.uid next acceptance.txn).state.isAccepted = true := by
  obtain ⟨before, after⟩ := Course.isAccepted_step step
  have owned : acceptance = ⟨txn.axiId, txn.uid⟩ ↔
      acceptance.txn = txn.uid ∧ (records acceptance.txn).axiId = acceptance.axiId := by
    constructor
    · rintro rfl
      exact ⟨rfl, by rw [known]⟩
    · intro ⟨same, axiId⟩
      rw [same, known] at axiId
      cases acceptance
      exact congrArg₂ Acceptance.mk axiId.symm same
  rw [accepted_observe inPlace]
  by_cases same : acceptance.txn = txn.uid
  · have member : acceptance ∈ tracker.accepted ↔
        acceptance = ⟨txn.axiId, txn.uid⟩ ∧ phase.isResponse = true := by
      rw [agrees.accepted, owned, same, before, known]
      simp only [own, true_and]
    have target : ((records acceptance.txn).command = command ∧
        (records acceptance.txn).axiId = acceptance.axiId ∧
          (Function.update courses txn.uid next acceptance.txn).state.isAccepted = true) ↔
        acceptance = ⟨txn.axiId, txn.uid⟩ ∧ next.state.isAccepted = true := by
      rw [owned, same, Function.update_self, known]
      simp only [own, true_and]
    rw [target, after]
    split
    · rename_i last
      subst last
      simp [member, Phase.isResponse]
    · split
      · rename_i last
        subst last
        simpa [Phase.isResponse] using fun found => (member.mp found).1
      · rename_i notRequest notResponse
        simp [member, notRequest, notResponse]
  · have different : acceptance ≠ ⟨txn.axiId, txn.uid⟩ := fun equal =>
      same (owned.mp equal).1
    rw [Function.update_of_ne same, ← agrees.accepted]
    split
    · simp [different]
    · split
      · simp [different]
      · rfl

private theorem observe_waiting (agrees : tracker.Agrees command records courses)
    (inPlace : tracker.InPlace phase) (step : (courses txn.uid).step phase = some next)
    (axiId : Nat) : ((tracker.observe txn phase).tracker.queue axiId).Nodup := by
  rw [queue_observe inPlace]
  split
  · rename_i last
    have absent : txn.uid ∉ tracker.queue axiId := by
      rw [mem_queue, agrees.accepted, (Course.isAccepted_step step).1, last.1]
      exact fun member => nomatch member.2.2
    exact List.nodup_append.mpr ⟨agrees.waiting axiId, List.nodup_singleton _,
      fun member present other only same =>
        absent (by rw [← List.mem_singleton.mp only, ← same]; exact present)⟩
  · split
    · exact (agrees.waiting axiId).filter _
    · exact agrees.waiting axiId

private theorem observe_first (agrees : tracker.Agrees command records courses)
    (known : records txn.uid = txn) (own : txn.command = command)
    (inPlace : tracker.InPlace phase) (step : (courses txn.uid).step phase = some next)
    (inTurn : phase.isResponse = true → (courses txn.uid).state = .waitForResponse →
      (tracker.queue txn.axiId).head? = some txn.uid)
    {other : TxnId} (member : (records other).command = command)
    (within : (Function.update courses txn.uid next other).state.within .response = true) :
    ((tracker.observe txn phase).tracker.queue (records other).axiId).head? = some other := by
  have here : (records txn.uid).command = command := by rw [known, own]
  have before := Course.within_response_of_step step
  -- a response beat is of the transaction at the head of its queue
  have heads : phase.isResponse = true →
      (tracker.queue txn.axiId).head? = some txn.uid := by
    intro response
    by_cases accepted : (courses txn.uid).state = .waitForResponse
    · exact inTurn response accepted
    · have answering : (courses txn.uid).state.within .response = true := by
        rw [before]
        simp [response, accepted]
      have head := agrees.first txn.uid here answering
      rw [known] at head
      exact head
  rw [queue_observe inPlace]
  by_cases same : other = txn.uid
  · rw [same, Function.update_self, Course.within_response_step step] at within
    simp only [Bool.and_eq_true, decide_eq_true_eq] at within
    obtain ⟨response, notLast⟩ := within
    have notRequest : phase ≠ .endRequest := by
      rintro rfl
      cases response
    rw [same, known, if_neg (fun both => notRequest both.1),
      if_neg (fun both => notLast both.1)]
    exact heads response
  · rw [Function.update_of_ne same] at within
    have head := agrees.first other member within
    split
    · rw [List.head?_append, head]
      rfl
    · split
      · -- the response that ends would be at the head of the same queue
        rename_i last
        have ends := heads (by rw [last.1]; rfl)
        rw [last.2, head] at ends
        exact absurd (Option.some.inj ends) same
      · exact head

/-- A phase in place that steps its own course in turn keeps the account. -/
theorem observe (agrees : tracker.Agrees command records courses)
    (known : records txn.uid = txn) (own : txn.command = command)
    (inPlace : tracker.InPlace phase) (step : (courses txn.uid).step phase = some next)
    (vacant : phase.isRequest = true → (courses txn.uid).state = .idle →
      tracker.openBurst = none)
    (inTurn : phase.isResponse = true → (courses txn.uid).state = .waitForResponse →
      (tracker.queue txn.axiId).head? = some txn.uid) :
    (tracker.observe txn phase).tracker.Agrees command records
      (Function.update courses txn.uid next) where
  opened := agrees.observe_opened known own inPlace step
  alone := fun _ _ _ _ _ => agrees.observe_alone known own inPlace step
  beats := fun side _ => agrees.observe_beats inPlace step side
  burst := agrees.observe_burst known own inPlace step vacant
  accepted := agrees.observe_accepted known own inPlace step
  waiting := agrees.observe_waiting inPlace step
  first := fun _ => agrees.observe_first known own inPlace step inTurn

end Agrees

end Tracker

end Handshake
