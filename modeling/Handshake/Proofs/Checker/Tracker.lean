import Handshake.Proofs.Course
import Handshake.Proofs.Table
import Handshake.Checker.Tracker
set_option autoImplicit false

/-! What one phase does to a tracker, side by side. The open phase of a side always
becomes what the phase opens. The rest is simple only if the phase is in place: it finds
open what it closes. -/

namespace Handshake.Tracker

def phaseOn (tracker : Tracker) : Side → Option Phase
  | .request => tracker.requestPhase
  | .response => tracker.responsePhase

def beatsOn (tracker : Tracker) : Side → Table TxnId Nat
  | .request => tracker.requestBeats
  | .response => tracker.responseBeats

/-- A phase is in place if it finds open on its side what it closes. -/
def InPlace (tracker : Tracker) (phase : Phase) : Prop :=
  ∀ side, phase.side? = some side → tracker.phaseOn side = phase.closes?

variable (tracker : Tracker) (txn : Transaction)

theorem phaseOn_observe (phase : Phase) (side : Side) :
    (tracker.observe txn phase).tracker.phaseOn side =
      if phase.side? = some side then phase.opens? else tracker.phaseOn side := by
  cases phase <;> cases side <;>
    simp only [observe, openRequest, endPartialRequest, endRequest, openResponse,
      endPartialResponse, endResponse] <;>
    repeat' first | rfl | split

theorem get?_beatsOn_observe_of_ne (phase : Phase) (side : Side) {other : TxnId}
    (different : other ≠ txn.uid) :
    ((tracker.observe txn phase).tracker.beatsOn side).get? other =
      (tracker.beatsOn side).get? other := by
  cases phase <;> cases side <;>
    simp only [observe, openRequest, endPartialRequest, endRequest, openResponse,
      endPartialResponse, endResponse] <;>
    repeat' first
      | rfl
      | exact Table.get?_insert_of_ne _ _ different
      | exact Table.get?_erase_of_ne _ different
      | split

theorem beatsOn_observe_of_side?_ne {phase : Phase} {side : Side}
    (off : phase.side? ≠ some side) :
    (tracker.observe txn phase).tracker.beatsOn side = tracker.beatsOn side := by
  cases phase <;> cases side <;>
    simp only [observe, openRequest, endPartialRequest, endRequest, openResponse,
      endPartialResponse, endResponse] <;>
    repeat' first | rfl | exact absurd rfl off | split

variable {tracker txn} {phase : Phase}

theorem observe_of_bare (tracker : Tracker) (txn : Transaction)
    (bare : phase.isHandshake = false) : tracker.observe txn phase = ⟨tracker, [], none⟩ := by
  cases phase <;> first | rfl | cases bare

theorem inPlace_of_breaches_eq_nil (clean : (tracker.observe txn phase).breaches = []) :
    tracker.InPlace phase := by
  intro side on
  cases phase <;> cases on <;>
    simp only [observe, openRequest, endPartialRequest, endRequest, openResponse,
      endPartialResponse, endResponse, phaseOn, Phase.closes?] at clean ⊢ <;>
    split at clean <;>
    first
    | assumption
    | cases clean

private theorem openRequest_of_open {earlier : Phase}
    (opened : tracker.requestPhase = some earlier) :
    tracker.openRequest txn phase =
      ⟨{ tracker with requestPhase := some phase }, [.stillOpen phase earlier], none⟩ := by
  simp only [openRequest, opened]

private theorem openResponse_of_open {earlier : Phase}
    (opened : tracker.responsePhase = some earlier) :
    tracker.openResponse txn phase =
      ⟨{ tracker with responsePhase := some phase }, [.stillOpen phase earlier], none⟩ := by
  simp only [openResponse, opened]

/-- A phase out of place is an illegal transition, and nothing but the open phase of its side
follows it. -/
theorem observe_of_not_inPlace (off : ¬ tracker.InPlace phase) :
    ∃ requestPhase responsePhase breach,
      tracker.observe txn phase =
          ⟨{ tracker with requestPhase, responsePhase }, [breach], none⟩ ∧
        breach.kind = .illegalTransition := by
  have differs : ∃ side, phase.side? = some side ∧ tracker.phaseOn side ≠ phase.closes? := by
    by_contra none
    exact off (fun side on => by_contra (fun differs => none ⟨side, on, differs⟩))
  obtain ⟨side, on, differs⟩ := differs
  cases phase with
  | beginPartialRequest | beginRequest =>
      cases on
      obtain ⟨earlier, opened⟩ := Option.ne_none_iff_exists'.mp differs
      exact ⟨_, tracker.responsePhase, _, openRequest_of_open opened, rfl⟩
  | beginPartialResponse | beginResponse =>
      cases on
      obtain ⟨earlier, opened⟩ := Option.ne_none_iff_exists'.mp differs
      exact ⟨tracker.requestPhase, _, _, openResponse_of_open opened, rfl⟩
  | endPartialRequest =>
      cases on
      exact ⟨none, tracker.responsePhase, _, if_neg differs, rfl⟩
  | endRequest =>
      cases on
      exact ⟨none, tracker.responsePhase, _, if_neg differs, rfl⟩
  | endPartialResponse =>
      cases on
      exact ⟨tracker.requestPhase, none, _, if_neg differs, rfl⟩
  | endResponse =>
      cases on
      exact ⟨tracker.requestPhase, none, _, if_neg differs, rfl⟩
  | _ => cases on

private theorem get?_openRequest (closed : tracker.requestPhase = none) :
    (tracker.openRequest txn phase).tracker.requestBeats.get? txn.uid =
      some ((tracker.requestBeats.get? txn.uid).getD 0) := by
  cases counted : tracker.requestBeats.get? txn.uid with
  | some beats =>
      simp only [openRequest, closed, Table.contains, counted, Option.isSome_some, if_true,
        Option.getD_some]
  | none =>
      simp only [openRequest, closed, Table.contains, counted, Option.isSome_none,
        Bool.false_eq_true, if_false, Option.getD_none]
      split <;> exact Table.get?_insert_self _ _ _

private theorem get?_openResponse (closed : tracker.responsePhase = none) :
    (tracker.openResponse txn phase).tracker.responseBeats.get? txn.uid =
      some ((tracker.responseBeats.get? txn.uid).getD 0) := by
  cases counted : tracker.responseBeats.get? txn.uid with
  | some beats =>
      simp only [openResponse, closed, Table.contains, counted, Option.isSome_some, if_true,
        Option.getD_some]
  | none =>
      simp only [openResponse, closed, Table.contains, counted, Option.isSome_none,
        Bool.false_eq_true, if_false, Option.getD_none]
      exact Table.get?_insert_self _ _ _

theorem get?_beatsOn_observe_self {side : Side} (inPlace : tracker.InPlace phase)
    (on : phase.side? = some side) :
    ((tracker.observe txn phase).tracker.beatsOn side).get? txn.uid =
      phase.countBeats ((tracker.beatsOn side).get? txn.uid) := by
  have found := inPlace side on
  cases phase with
  | beginPartialRequest | beginRequest =>
      cases on
      exact get?_openRequest found
  | endPartialRequest =>
      cases on
      have opened : tracker.requestPhase = some .beginPartialRequest := found
      simp only [observe, endPartialRequest, if_pos opened]
      exact Table.get?_insert_self _ _ _
  | endRequest =>
      cases on
      have opened : tracker.requestPhase = some .beginRequest := found
      simp only [observe, endRequest, if_pos opened]
      exact Table.get?_erase_self _ _
  | beginPartialResponse | beginResponse =>
      cases on
      exact get?_openResponse found
  | endPartialResponse =>
      cases on
      have opened : tracker.responsePhase = some .beginPartialResponse := found
      simp only [observe, endPartialResponse, if_pos opened]
      exact Table.get?_insert_self _ _ _
  | endResponse =>
      cases on
      have opened : tracker.responsePhase = some .beginResponse := found
      simp only [observe, endResponse, if_pos opened]
      exact Table.get?_erase_self _ _
  | _ => cases on

/-! ### The burst in flight -/

/-- The burst in flight changes only with the first beginning of a request and with its
last end. -/
theorem openBurst_observe_of_counted (inPlace : tracker.InPlace phase)
    (counted : phase = .beginPartialRequest ∨ phase = .beginRequest →
      (tracker.requestBeats.get? txn.uid).isSome = true)
    (notLast : phase ≠ .endRequest) :
    (tracker.observe txn phase).tracker.openBurst = tracker.openBurst := by
  have found := inPlace .request
  cases phase with
  | beginPartialRequest | beginRequest =>
      have closed : tracker.requestPhase = none := found rfl
      simp only [observe, openRequest, closed, Table.contains, counted (by simp), if_true]
  | endPartialRequest =>
      have opened : tracker.requestPhase = some .beginPartialRequest := found rfl
      simp only [observe, endPartialRequest, if_pos opened]
  | endRequest => exact absurd rfl notLast
  | beginPartialResponse | beginResponse =>
      simp only [observe, openResponse]
      repeat' first | rfl | split
  | endPartialResponse | endResponse =>
      simp only [observe, endPartialResponse, endResponse]
      split <;> rfl
  | _ => rfl

theorem openBurst_observe_of_uncounted (inPlace : tracker.InPlace phase)
    (begins : phase = .beginPartialRequest ∨ phase = .beginRequest)
    (uncounted : tracker.requestBeats.get? txn.uid = none) :
    (tracker.observe txn phase).tracker.openBurst =
      some ((tracker.openBurst.filter (fun burst => burst.owner ≠ txn.uid)).getD
        ⟨txn.axiId, txn.uid⟩) := by
  have found := inPlace .request
  rcases begins with rfl | rfl
  all_goals
    have closed : tracker.requestPhase = none := found rfl
    simp only [observe, openRequest, closed, Table.contains, uncounted, Option.isSome_none,
      Bool.false_eq_true, if_false]
    cases flight : tracker.openBurst.filter (fun burst => burst.owner ≠ txn.uid) with
    | none => rfl
    | some burst => exact (Option.filter_eq_some_iff.mp flight).1

theorem openBurst_observe_of_fresh (inPlace : tracker.InPlace phase)
    (begins : phase = .beginPartialRequest ∨ phase = .beginRequest)
    (fresh : tracker.requestBeats.get? txn.uid = none) (vacant : tracker.openBurst = none) :
    (tracker.observe txn phase).tracker.openBurst = some ⟨txn.axiId, txn.uid⟩ := by
  rw [openBurst_observe_of_uncounted inPlace begins fresh, vacant, Option.filter_none,
    Option.getD_none]

theorem openBurst_observe_endRequest (inPlace : tracker.InPlace .endRequest) :
    (tracker.observe txn .endRequest).tracker.openBurst =
      tracker.openBurst.filter (fun burst => burst.owner ≠ txn.uid) := by
  have opened : tracker.requestPhase = some .beginRequest := inPlace .request rfl
  simp only [observe, endRequest, if_pos opened]

/-! ### The accepted requests -/

theorem accepted_observe (inPlace : tracker.InPlace phase) :
    (tracker.observe txn phase).tracker.accepted =
      if phase = .endRequest then tracker.accepted ++ [⟨txn.axiId, txn.uid⟩]
      else if phase = .endResponse then
        tracker.accepted.filter (fun acceptance => acceptance ≠ ⟨txn.axiId, txn.uid⟩)
      else tracker.accepted := by
  cases phase with
  | endRequest =>
      have opened : tracker.requestPhase = some .beginRequest := inPlace .request rfl
      simp only [observe, endRequest, if_pos opened, if_true]
  | endResponse =>
      have opened : tracker.responsePhase = some .beginResponse := inPlace .response rfl
      simp only [observe, endResponse, if_pos opened, reduceCtorEq, if_false, if_true]
  | beginPartialRequest | beginRequest =>
      simp only [observe, openRequest, reduceCtorEq, if_false]
      repeat' first | rfl | split
  | beginPartialResponse | beginResponse =>
      simp only [observe, openResponse, reduceCtorEq, if_false]
      repeat' first | rfl | split
  | endPartialRequest | endPartialResponse =>
      simp only [observe, endPartialRequest, endPartialResponse, reduceCtorEq, if_false]
      split <;> rfl
  | _ => rfl

theorem mem_queue {axiId : Nat} {other : TxnId} :
    other ∈ tracker.queue axiId ↔ ⟨axiId, other⟩ ∈ tracker.accepted := by
  simp only [queue, List.mem_map, List.mem_filter, decide_eq_true_eq]
  constructor
  · rintro ⟨acceptance, ⟨member, rfl⟩, rfl⟩
    exact member
  · intro member
    exact ⟨_, ⟨member, rfl⟩, rfl⟩

theorem queue_observe (inPlace : tracker.InPlace phase) (axiId : Nat) :
    (tracker.observe txn phase).tracker.queue axiId =
      if phase = .endRequest ∧ txn.axiId = axiId then tracker.queue axiId ++ [txn.uid]
      else if phase = .endResponse ∧ txn.axiId = axiId then
        (tracker.queue axiId).filter (fun other => other ≠ txn.uid)
      else tracker.queue axiId := by
  unfold queue
  rw [accepted_observe inPlace]
  by_cases request : phase = .endRequest
  · by_cases own : txn.axiId = axiId
    · simp [request, own]
    · simp [request, own]
  · by_cases response : phase = .endResponse
    · by_cases own : txn.axiId = axiId
      · subst own
        rw [if_neg request, if_pos response, if_neg (fun both => request both.1),
          if_pos ⟨response, rfl⟩, List.filter_map, List.filter_filter, List.filter_filter]
        congr 2
        funext acceptance
        obtain ⟨axiId, other⟩ := acceptance
        by_cases same : axiId = txn.axiId
        · simp [same]
        · simp [same]
      · rw [if_neg request, if_pos response, if_neg (fun both => request both.1),
          if_neg (fun both => own both.2), List.filter_filter]
        congr 2
        funext acceptance
        obtain ⟨axiId', other⟩ := acceptance
        by_cases same : axiId' = axiId
        · simp [same, Ne.symm own]
        · simp [same]
    · simp [request, response]

/-! ### What a phase in place breaks -/

theorem breaches_observe_of_begin_request_eq (inPlace : tracker.InPlace phase)
    (begins : phase = .beginPartialRequest ∨ phase = .beginRequest) :
    (tracker.observe txn phase).breaches =
      if (tracker.requestBeats.get? txn.uid).isSome then []
      else (tracker.openBurst.filter (fun burst => burst.owner ≠ txn.uid)).toList.map
        (fun burst => .burstOverlap txn.axiId burst.owner burst.axiId) := by
  have found := inPlace .request
  rcases begins with rfl | rfl
  all_goals
    have closed : tracker.requestPhase = none := found rfl
    cases counted : tracker.requestBeats.get? txn.uid with
    | some beats =>
        simp only [observe, openRequest, closed, Table.contains, counted, Option.isSome_some,
          if_true]
    | none =>
        simp only [observe, openRequest, closed, Table.contains, counted, Option.isSome_none,
          Bool.false_eq_true, if_false]
        cases tracker.openBurst.filter (fun burst => burst.owner ≠ txn.uid) <;> rfl

theorem breaches_observe_of_begin_request (inPlace : tracker.InPlace phase)
    (begins : phase = .beginPartialRequest ∨ phase = .beginRequest) :
    (tracker.observe txn phase).breaches = [] ↔
      (tracker.requestBeats.get? txn.uid).isSome = true ∨
        ∀ burst, tracker.openBurst = some burst → burst.owner = txn.uid := by
  rw [breaches_observe_of_begin_request_eq inPlace begins]
  cases (tracker.requestBeats.get? txn.uid).isSome with
  | true => simp
  | false =>
      cases flight : tracker.openBurst with
      | none => simp
      | some burst =>
          by_cases own : burst.owner = txn.uid
          · simp [own, Option.filter_some]
          · simp [own, Option.filter_some]

theorem orderBreaches_eq_nil_iff (tracker : Tracker) (txn : Transaction) :
    tracker.orderBreaches txn = [] ↔ (tracker.queue txn.axiId).head? = some txn.uid := by
  unfold orderBreaches
  cases tracker.queue txn.axiId with
  | nil => simp
  | cons head rest =>
      by_cases own : head = txn.uid
      · simp [own]
      · by_cases later : txn.uid ∈ rest
        · simp [own, later]
        · simp [own, later, Ne.symm own]

theorem breaches_observe_of_begin_response_eq (inPlace : tracker.InPlace phase)
    (begins : phase = .beginPartialResponse ∨ phase = .beginResponse) :
    (tracker.observe txn phase).breaches =
      if (tracker.responseBeats.get? txn.uid).isSome then [] else tracker.orderBreaches txn := by
  have found := inPlace .response
  rcases begins with rfl | rfl
  all_goals
    have closed : tracker.responsePhase = none := found rfl
    cases counted : tracker.responseBeats.get? txn.uid with
    | some beats =>
        simp only [observe, openResponse, closed, Table.contains, counted, Option.isSome_some,
          if_true]
    | none =>
        simp only [observe, openResponse, closed, Table.contains, counted, Option.isSome_none,
          Bool.false_eq_true, if_false]

theorem breaches_observe_of_begin_response (inPlace : tracker.InPlace phase)
    (begins : phase = .beginPartialResponse ∨ phase = .beginResponse) :
    (tracker.observe txn phase).breaches = [] ↔
      (tracker.responseBeats.get? txn.uid).isSome = true ∨
        (tracker.queue txn.axiId).head? = some txn.uid := by
  rw [breaches_observe_of_begin_response_eq inPlace begins]
  split
  · rename_i counted
    simp [counted]
  · rename_i counted
    simp [counted, tracker.orderBreaches_eq_nil_iff txn]

theorem breaches_observe_endRequest_eq (inPlace : tracker.InPlace .endRequest) :
    (tracker.observe txn .endRequest).breaches =
      if txn.isWrite then
        beatBreaches .request ((tracker.requestBeats.get? txn.uid).getD 0 + 1) txn ++
          byteBreaches txn
      else [] := by
  have opened : tracker.requestPhase = some .beginRequest := inPlace .request rfl
  simp only [observe, endRequest, if_pos opened]

theorem breaches_observe_endRequest (inPlace : tracker.InPlace .endRequest) :
    (tracker.observe txn .endRequest).breaches = [] ↔
      (txn.isWrite = true →
        (tracker.requestBeats.get? txn.uid).getD 0 = txn.length ∧ byteBreaches txn = []) := by
  rw [breaches_observe_endRequest_eq inPlace]
  simp only [beatBreaches, Transaction.beats]
  cases txn.isWrite <;> simp

theorem breaches_observe_endResponse_eq (inPlace : tracker.InPlace .endResponse) :
    (tracker.observe txn .endResponse).breaches =
      if txn.isRead then
        beatBreaches .response ((tracker.responseBeats.get? txn.uid).getD 0 + 1) txn ++
          byteBreaches txn
      else [] := by
  have opened : tracker.responsePhase = some .beginResponse := inPlace .response rfl
  simp only [observe, endResponse, if_pos opened]

theorem breaches_observe_endResponse (inPlace : tracker.InPlace .endResponse) :
    (tracker.observe txn .endResponse).breaches = [] ↔
      (txn.isRead = true →
        (tracker.responseBeats.get? txn.uid).getD 0 = txn.length ∧ byteBreaches txn = []) := by
  rw [breaches_observe_endResponse_eq inPlace]
  simp only [beatBreaches, Transaction.beats]
  cases txn.isRead <;> simp

theorem breaches_observe_of_rest (inPlace : tracker.InPlace phase)
    (begins : phase.isBegin = false) (request : phase ≠ .endRequest)
    (response : phase ≠ .endResponse) : (tracker.observe txn phase).breaches = [] := by
  cases phase with
  | endPartialRequest =>
      have opened : tracker.requestPhase = some .beginPartialRequest := inPlace .request rfl
      simp only [observe, endPartialRequest, if_pos opened]
  | endPartialResponse =>
      have opened : tracker.responsePhase = some .beginPartialResponse := inPlace .response rfl
      simp only [observe, endPartialResponse, if_pos opened]
  | endRequest => exact absurd rfl request
  | endResponse => exact absurd rfl response
  | beginPartialRequest | beginRequest | beginPartialResponse | beginResponse => cases begins
  | _ => rfl

/-! ### Milestones -/

theorem milestone_observe_burstOpened (inPlace : tracker.InPlace phase) :
    (tracker.observe txn phase).milestone = some .burstOpened ↔
      (phase = .beginPartialRequest ∨ phase = .beginRequest) ∧
        tracker.requestBeats.get? txn.uid = none := by
  have found := inPlace .request
  cases phase with
  | beginPartialRequest | beginRequest =>
      have closed : tracker.requestPhase = none := found rfl
      cases counted : tracker.requestBeats.get? txn.uid with
      | some beats => simp [observe, openRequest, closed, Table.contains, counted]
      | none =>
          simp only [observe, openRequest, closed, Table.contains, counted]
          cases tracker.openBurst.filter (fun burst => burst.owner ≠ txn.uid) <;> simp
  | endPartialRequest | endRequest | endPartialResponse | endResponse =>
      simp only [observe, endPartialRequest, endRequest, endPartialResponse, endResponse]
      split <;> simp
  | beginPartialResponse | beginResponse =>
      simp only [observe, openResponse]
      split
      · simp
      · split <;> simp
  | _ => simp [observe]

theorem milestone_observe_responseCompleted (inPlace : tracker.InPlace phase) :
    (tracker.observe txn phase).milestone = some .responseCompleted ↔ phase = .endResponse := by
  have found := inPlace .response
  cases phase with
  | endResponse =>
      have opened : tracker.responsePhase = some .beginResponse := found rfl
      simp only [observe, endResponse, if_pos opened]
  | beginPartialRequest | beginRequest =>
      simp only [observe, openRequest]
      repeat' first | simp | split
  | beginPartialResponse | beginResponse =>
      simp only [observe, openResponse]
      repeat' first | simp | split
  | endPartialRequest | endRequest | endPartialResponse =>
      simp only [observe, endPartialRequest, endRequest, endPartialResponse]
      split <;> simp
  | _ => simp [observe]

end Handshake.Tracker
