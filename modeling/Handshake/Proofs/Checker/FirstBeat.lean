import Handshake.Proofs.Checker.Matched
set_option autoImplicit false

/-! First beats. Broken order is only ever reported of the first matched phase of a transaction
on a side, and only if that is a beginning: on the request side of a burst that starts inside
another, on the response side of an answer out of turn. -/

namespace Handshake

namespace History

/-- An event begins a side with the first matched phase of its transaction there since the
side was last completed. -/
def Enters (before : History) (event : Observation) (side : Side) : Prop :=
  event.phase.isBegin = true ∧ event.phase.side? = some side ∧ before.FindsOpen event ∧
    ∀ phase ∈ before.since event.record.command event.record.uid side.lastEnd,
      phase.side? ≠ some side

instance (before : History) (event : Observation) (side : Side) :
    Decidable (before.Enters event side) :=
  inferInstanceAs (Decidable (_ ∧ _ ∧ _ ∧ ∀ phase ∈ before.since _ _ _, _))

end History

namespace Tracker

variable {tracker : Tracker} {txn : Transaction} {phase : Phase}

private theorem kind_ne_ordering_of_data (side : Side) (beats : Nat) (txn : Transaction) :
    ∀ breach ∈ beatBreaches side beats txn ++ byteBreaches txn, breach.kind ≠ .ordering := by
  intro breach member
  rcases List.mem_append.mp member with length | size
  · unfold beatBreaches at length
    split at length
    · cases length
    · rw [List.mem_singleton.mp length]
      exact ViolationKind.noConfusion
  · rw [kind_of_mem_byteBreaches size]
    exact ViolationKind.noConfusion

private theorem kind_ne_ordering_of_end (inPlace : tracker.InPlace phase)
    (ends : phase.isBegin = false) :
    ∀ breach ∈ (tracker.observe txn phase).breaches, breach.kind ≠ .ordering := by
  cases phase with
  | endRequest =>
      rw [breaches_observe_endRequest_eq inPlace]
      split
      · exact kind_ne_ordering_of_data _ _ _
      · exact List.forall_mem_nil _
  | endResponse =>
      rw [breaches_observe_endResponse_eq inPlace]
      split
      · exact kind_ne_ordering_of_data _ _ _
      · exact List.forall_mem_nil _
  | beginPartialRequest | beginRequest | beginPartialResponse | beginResponse => cases ends
  | _ =>
      rw [breaches_observe_of_rest inPlace rfl Phase.noConfusion Phase.noConfusion]
      exact List.forall_mem_nil _

end Tracker

namespace Checker

variable {before : History} {event : Observation} {side : Side}

theorem enters_iff_uncounted (config : CheckerConfig) (begins : event.phase.isBegin = true)
    (on : event.phase.side? = some side) (finds : before.FindsOpen event) :
    before.Enters event side ↔
      ((trackerOf config before event.record.command).beatsOn side).get? event.record.uid =
        none := by
  rw [get?_beatsOn_trackerOf, Side.beats?_eq_none_iff]
  exact ⟨fun enters => enters.2.2.2, fun fresh => ⟨begins, on, finds, fresh⟩⟩

theorem uncounted_of_enters (config : CheckerConfig) (enters : before.Enters event side) :
    ((trackerOf config before event.record.command).beatsOn side).get? event.record.uid = none :=
  (enters_iff_uncounted config enters.1 enters.2.1 enters.2.2.1).mp enters

theorem foundOfKind_ordering_of_not_enters (config : CheckerConfig)
    (inside : ∀ side, ¬ before.Enters event side) :
    foundOfKind .ordering config before event = [] := by
  rw [foundOfKind_eq rfl, List.map_eq_nil_iff, List.filter_eq_nil_iff]
  by_cases finds : before.FindsOpen event
  · have inPlace := (findsOpen_iff_inPlace config before event).mp finds
    cases begins : event.phase.isBegin with
    | false =>
        intro breach member
        simpa using Tracker.kind_ne_ordering_of_end inPlace begins breach member
    | true =>
        -- a beginning that is not the first on its side belongs to a transaction that is counted
        have counted (side : Side) (on : event.phase.side? = some side) :
            (((trackerOf config before event.record.command).beatsOn side).get?
              event.record.uid).isSome = true :=
          Option.isSome_iff_ne_none.mpr (fun uncounted =>
            inside side ((enters_iff_uncounted config begins on finds).mpr uncounted))
        have quiet : (ruling config before event).breaches = [] := by
          obtain ⟨side, on⟩ := Option.isSome_iff_exists.mp (Phase.side?_isSome_of_isBegin begins)
          cases side with
          | request =>
              rw [ruling, Tracker.breaches_observe_of_begin_request_eq inPlace
                (Phase.begins_of_isRequest (Phase.isRequest_of_side? on) begins)]
              exact if_pos (counted .request on)
          | response =>
              rw [ruling, Tracker.breaches_observe_of_begin_response_eq inPlace
                (Phase.begins_of_isResponse (Phase.isResponse_of_side? on) begins)]
              exact if_pos (counted .response on)
        rw [quiet]
        exact List.forall_mem_nil _
  · obtain ⟨_, _, breach, same, kind⟩ := ruling_of_not_findsOpen config finds
    rw [same]
    simp [kind]

theorem foundOfKind_ordering_of_enters_request (config : CheckerConfig)
    (enters : before.Enters event .request) :
    foundOfKind .ordering config before event =
      ((trackerOf config before event.record.command).openBurst.filter
        (fun burst => burst.owner ≠ event.record.uid)).toList.map (fun burst =>
          Violation.ofBreach event.record
            (.burstOverlap event.record.axiId burst.owner burst.axiId)) := by
  have inPlace := (findsOpen_iff_inPlace config before event).mp enters.2.2.1
  have request := Phase.begins_of_isRequest (Phase.isRequest_of_side? enters.2.1) enters.1
  have uncounted : (trackerOf config before event.record.command).requestBeats.get?
      event.record.uid = none := uncounted_of_enters config enters
  rw [foundOfKind_eq rfl, ruling, List.filter_eq_self.mpr,
    Tracker.breaches_observe_of_begin_request_eq inPlace request, uncounted, if_neg (by simp),
    List.map_map]
  · rfl
  · intro breach member
    exact decide_eq_true (Tracker.kind_of_mem_breaches_of_begin_request inPlace request member)

theorem foundOfKind_ordering_of_enters_response (config : CheckerConfig)
    (enters : before.Enters event .response) :
    foundOfKind .ordering config before event =
      ((trackerOf config before event.record.command).orderBreaches event.record).map
        (Violation.ofBreach event.record) := by
  have inPlace := (findsOpen_iff_inPlace config before event).mp enters.2.2.1
  have response := Phase.begins_of_isResponse (Phase.isResponse_of_side? enters.2.1) enters.1
  have uncounted : (trackerOf config before event.record.command).responseBeats.get?
      event.record.uid = none := uncounted_of_enters config enters
  rw [foundOfKind_eq rfl, ruling, List.filter_eq_self.mpr,
    Tracker.breaches_observe_of_begin_response_eq inPlace response, uncounted, if_neg (by simp)]
  intro breach member
  exact decide_eq_true (Tracker.kind_of_mem_breaches_of_begin_response inPlace response member)

end Checker

end Handshake
