import Handshake.Proofs.Checker.FirstBeat
set_option autoImplicit false

/-! The order of responses. The accepted requests that a tracker keeps for an identifier are the
matched ends of requests that no matched end of a response has followed yet. The first beat of a
response must belong to the first of them; no other phase of a response is judged. -/

namespace Handshake

namespace History

/-- The transactions of the ended requests that no ended response of the same transaction
follows. -/
def withoutResponse : History → List TxnId
  | [] => []
  | event :: rest =>
      if event.phase = .endRequest ∧
          ∀ later ∈ rest, later.phase = .endResponse → later.record.uid ≠ event.record.uid then
        event.record.uid :: withoutResponse rest
      else withoutResponse rest

/-- The transactions of a command and an identifier that wait for their response, oldest request
first. -/
def unanswered (history : History) (command : Command) (axiId : Nat) : List TxnId :=
  withoutResponse (history.matched.filter (fun seen =>
    seen.record.command = command ∧ seen.record.axiId = axiId))

private theorem withoutResponse_append_singleton (history : History) (event : Observation) :
    (history ++ [event]).withoutResponse =
      if event.phase = .endRequest then history.withoutResponse ++ [event.record.uid]
      else if event.phase = .endResponse then
        history.withoutResponse.filter (fun txn => txn ≠ event.record.uid)
      else history.withoutResponse := by
  induction history with
  | nil =>
      simp only [List.nil_append, withoutResponse, List.not_mem_nil, false_implies, implies_true,
        and_true, List.filter_nil, ite_self]
  | cons first rest ih =>
      simp only [List.cons_append, withoutResponse, ih, List.forall_mem_append,
        List.forall_mem_singleton]
      by_cases request : event.phase = .endRequest
      · simp only [request, if_true, reduceCtorEq, false_implies, and_true]
        split
        · rfl
        · rfl
      · by_cases response : event.phase = .endResponse
        · -- the end of a response takes its transaction out wherever it stands
          simp only [response, reduceCtorEq, if_false, if_true, true_implies]
          by_cases waits : first.phase = .endRequest ∧ ∀ later ∈ rest,
              later.phase = .endResponse → later.record.uid ≠ first.record.uid
          · by_cases own : event.record.uid = first.record.uid
            · rw [if_neg (fun both => both.2.2 own), if_pos waits,
                List.filter_cons_of_neg (by simp [own])]
            · rw [if_pos ⟨waits.1, waits.2, own⟩, if_pos waits,
                List.filter_cons_of_pos (by simpa using Ne.symm own)]
          · rw [if_neg waits, if_neg (fun both => waits ⟨both.1, both.2.1⟩)]
        · simp only [request, response, if_false, false_implies, and_true]

private theorem unanswered_append_singleton (history : History) (event : Observation)
    (command : Command)
    (axiId : Nat) :
    (history ++ [event]).unanswered command axiId =
      if history.FindsOpen event ∧ event.record.command = command ∧
          event.record.axiId = axiId then
        if event.phase = .endRequest then
          history.unanswered command axiId ++ [event.record.uid]
        else if event.phase = .endResponse then
          (history.unanswered command axiId).filter (fun txn => txn ≠ event.record.uid)
        else history.unanswered command axiId
      else history.unanswered command axiId := by
  unfold unanswered
  rw [matched_append_singleton, List.filter_append]
  by_cases finds : history.FindsOpen event
  · rw [if_pos finds]
    by_cases own : event.record.command = command ∧ event.record.axiId = axiId
    · rw [if_pos (show history.FindsOpen event ∧ _ from ⟨finds, own⟩), List.filter_singleton,
        decide_eq_true own]
      exact withoutResponse_append_singleton _ _
    · rw [if_neg (fun all => own all.2), List.filter_singleton, decide_eq_false own]
      exact congrArg _ (List.append_nil _)
  · rw [if_neg finds, if_neg (fun all => finds all.1)]
    exact congrArg _ (List.append_nil _)

end History

namespace Checker

variable {config : CheckerConfig} {before : History} {event : Observation}

private theorem queue_trackerOf (config : CheckerConfig) (history : History) (command : Command)
    (axiId : Nat) :
    (trackerOf config history command).queue axiId = history.unanswered command axiId := by
  induction history using List.reverseRecOn with
  | nil =>
      rw [trackerOf_nil]
      rfl
  | append_singleton before event ih =>
      rw [trackerOf_append_singleton, History.unanswered_append_singleton]
      by_cases on : event.record.command = command
      · subst on
        rw [if_pos rfl]
        by_cases finds : History.FindsOpen before event
        · rw [ruling, Tracker.queue_observe ((findsOpen_iff_inPlace config before event).mp finds),
            ih]
          by_cases own : event.record.axiId = axiId
          · simp [finds, own]
          · simp [own]
        · obtain ⟨_, _, breach, same, -⟩ := ruling_of_not_findsOpen config finds
          rw [same, if_neg (fun all => finds all.1), ← ih]
          rfl
      · rw [if_neg on, ih, if_neg (fun all => on all.2.1)]

/-- The first beat of a response is in order exactly if its transaction is the first that waits;
else it is either a response to nothing or overtakes the first. No other phase of a response is
out of order. -/
theorem foundOfKind_ordering_of_isResponse (config : CheckerConfig)
    (response : event.phase.isResponse = true) :
    (before.Enters event .response →
        ((before.unanswered event.record.command event.record.axiId).head? =
            some event.record.uid →
          foundOfKind .ordering config before event = []) ∧
        (event.record.uid ∉ before.unanswered event.record.command event.record.axiId →
          foundOfKind .ordering config before event =
            [Violation.ofBreach event.record .neverAccepted]) ∧
        (∀ head, (before.unanswered event.record.command event.record.axiId).head? = some head →
          head ≠ event.record.uid →
            event.record.uid ∈ before.unanswered event.record.command event.record.axiId →
              foundOfKind .ordering config before event =
                [Violation.ofBreach event.record (.overtakes head)])) ∧
      (¬ before.Enters event .response → foundOfKind .ordering config before event = []) := by
  refine ⟨fun enters => ?_, fun outside => ?_⟩
  · rw [foundOfKind_ordering_of_enters_response config enters, ← queue_trackerOf config]
    refine ⟨fun first => ?_, fun unaccepted => ?_, fun head first other accepted => ?_⟩
    · rw [(Tracker.orderBreaches_eq_nil_iff _ _).mpr first]
      rfl
    · rw [Tracker.orderBreaches, if_pos unaccepted]
      rfl
    · simp only [Tracker.orderBreaches, accepted, first, other, not_true_eq_false, if_false,
        List.map_cons, List.map_nil]
  · refine foundOfKind_ordering_of_not_enters config (fun side => ?_)
    cases side with
    | response => exact outside
    | request =>
        rintro ⟨-, on, -⟩
        have request := Phase.isResponse_of_isRequest (Phase.isRequest_of_side? on)
        rw [response] at request
        cases request

theorem foundOfKind_ordering_of_second_response :
    Phase.beginResponse.isResponse = true ∧
      foundOfKind .ordering {}
          [⟨.beginRequest, .plain ⟨0⟩ .read⟩, ⟨.endRequest, .plain ⟨0⟩ .read⟩,
            ⟨.beginRequest, .plain ⟨1⟩ .read⟩, ⟨.endRequest, .plain ⟨1⟩ .read⟩]
          ⟨.beginResponse, .plain ⟨1⟩ .read⟩ =
        [Violation.ofBreach (.plain ⟨1⟩ .read) (.overtakes ⟨0⟩)] :=
  ⟨rfl, ((foundOfKind_ordering_of_isResponse {} rfl).1 (by decide)).2.2 _ rfl (by decide)
    (by decide)⟩

end Checker

end Handshake
