import Mathlib.Data.List.Induction
import Handshake.Proofs.Course
set_option autoImplicit false

/-! Courses that end with the first completed response. Along such a course a side that was
entered is left by its own end only, and the beats of the course are the ends counted from
its start. -/

namespace Handshake.Course

variable {phases before after : List Phase} {course next : Course} {phase : Phase}

/-! ### Single steps -/

private theorem endResponse_of_idle (step : course.step phase = some next)
    (idle : next.state = .idle) :
    phase = .endResponse := by
  obtain ⟨state, requestBeats, responseBeats⟩ := course
  cases state <;> cases phase <;> cases step <;> cases idle
  rfl

private theorem isRequest_of_within_request (step : course.step phase = some next)
    (within : course.state.within .request = true) : phase.isRequest = true := by
  obtain ⟨state, requestBeats, responseBeats⟩ := course
  cases state <;> cases phase <;> cases step <;> cases within <;> rfl

private theorem eq_of_openPhase? {side : Side} {opened : Phase}
    (step : course.step phase = some next)
    (openAfter : next.state.openPhase? side = some opened) : phase = opened := by
  by_cases on : phase.side? = some side
  · rw [(openPhase?_step step on).2, Phase.opens?] at openAfter
    split at openAfter
    · exact Option.some.inj openAfter
    · cases openAfter
  · rw [(openPhase?_step_of_ne step on).2] at openAfter
    cases openAfter

private theorem responseBeats_of_step (step : course.step phase = some next)
    (early : next.state.within .request = true ∨ next.state = .waitForResponse) :
    next.responseBeats = 0 := by
  obtain ⟨state, requestBeats, responseBeats⟩ := course
  cases state <;> cases phase <;> cases step <;> first | rfl | rcases early with early | early
  all_goals cases early

private theorem beats_of_step (step : course.step phase = some next) (busy : course.state ≠ .idle)
    (early : course.state.within .request = true ∨ course.state = .waitForResponse →
      course.responseBeats = 0) :
    next.requestBeats = course.requestBeats + [phase].count .endPartialRequest ∧
      next.responseBeats = course.responseBeats + [phase].count .endPartialResponse := by
  obtain ⟨state, requestBeats, responseBeats⟩ := course
  cases state <;> cases phase <;> cases step <;>
    first
    | exact ⟨rfl, rfl⟩
    | exact ⟨rfl, (early (.inl rfl)).symm⟩
    | exact ⟨rfl, (early (.inr rfl)).symm⟩
    | exact absurd rfl busy

/-! ### Walks -/

private theorem eq_nil_of_idle (walk : start.walk phases = some course)
    (alive : .endResponse ∉ phases) (idle : course.state = .idle) : phases = [] := by
  rcases eq_start_or_exists_step walk with ⟨rfl, -⟩ | ⟨earlier, last, reached, rfl, -, step⟩
  · rfl
  · rw [endResponse_of_idle step idle] at alive
    simp at alive

theorem within_request_of_walk (walk : start.walk phases = some course)
    (unended : .endRequest ∉ phases) :
    phases = [] ∨ course.state.within .request = true := by
  induction phases using List.reverseRecOn generalizing course with
  | nil => exact .inl rfl
  | append_singleton earlier last ih =>
      rw [walk_append_singleton] at walk
      obtain ⟨reached, walked, step⟩ := Option.bind_eq_some_iff.mp walk
      simp only [List.mem_append, List.mem_singleton, not_or] at unended
      have request : last.isRequest = true := by
        rcases ih walked unended.1 with rfl | within
        · cases walked
          rcases begins_of_idle rfl step with rfl | rfl <;> rfl
        · exact isRequest_of_within_request step within
      right
      rw [within_request_step step, request]
      simpa using Ne.symm unended.2

theorem mem_of_isAccepted (walk : start.walk phases = some course)
    (accepted : course.state.isAccepted = true) : .endRequest ∈ phases := by
  have last := List.mem_of_getLast? ((isAccepted_iff_of_walk walk).mp accepted)
  exact (List.mem_filter.mp last).1

private theorem isAccepted_of_mem (walk : start.walk phases = some course)
    (alive : .endResponse ∉ phases) (ended : .endRequest ∈ phases) :
    course.state.isAccepted = true := by
  rw [isAccepted_iff_of_walk walk]
  cases last : (phases.filter (fun phase =>
      phase = .endRequest ∨ phase = .endResponse)).getLast? with
  | none =>
      rw [List.getLast?_eq_none_iff, List.filter_eq_nil_iff] at last
      exact absurd (by simp) (last .endRequest ended)
  | some found =>
      have member := List.mem_of_getLast? last
      simp only [List.mem_filter, decide_eq_true_eq] at member
      obtain ⟨inside, rfl | rfl⟩ := member
      · rfl
      · exact absurd inside alive

theorem isRequest_after_endRequest
    (walk : start.walk (before ++ .endRequest :: after) = some course)
    (once : .endResponse ∉ (before ++ .endRequest :: after).dropLast) :
    ∀ phase ∈ after, phase.isRequest = false := by
  intro phase member
  obtain ⟨middle, rest, rfl⟩ := List.append_of_mem member
  rw [← List.cons_append, ← List.append_assoc] at walk once
  rw [List.dropLast_append_of_ne_nil (List.cons_ne_nil phase rest), List.mem_append,
    not_or] at once
  rw [walk_append] at walk
  obtain ⟨reached, walked, later⟩ := Option.bind_eq_some_iff.mp walk
  obtain ⟨next, step, -⟩ := Option.bind_eq_some_iff.mp later
  have accepted := isAccepted_of_mem walked once.1 (by simp)
  rw [(isAccepted_step step).1] at accepted
  exact Phase.isRequest_of_isResponse accepted

theorem beats_of_walk (walk : start.walk phases = some course)
    (once : .endResponse ∉ phases.dropLast) :
    course.requestBeats = phases.count .endPartialRequest ∧
      course.responseBeats = phases.count .endPartialResponse := by
  induction phases using List.reverseRecOn generalizing course with
  | nil =>
      cases walk
      exact ⟨rfl, rfl⟩
  | append_singleton earlier last ih =>
      rw [walk_append_singleton] at walk
      obtain ⟨reached, walked, step⟩ := Option.bind_eq_some_iff.mp walk
      rw [List.dropLast_concat] at once
      obtain ⟨requests, responses⟩ :=
        ih walked (fun member => once (List.dropLast_subset _ member))
      rw [List.count_append, List.count_append, ← requests, ← responses]
      by_cases idle : reached.state = .idle
      · obtain rfl := eq_nil_of_idle walked once idle
        cases walked
        rcases begins_of_idle rfl step with rfl | rfl
        all_goals
          cases step
          exact ⟨rfl, rfl⟩
      · refine beats_of_step step idle (fun early => ?_)
        rcases eq_start_or_exists_step walked with ⟨-, rfl⟩ | ⟨_, _, _, -, -, taken⟩
        · rfl
        · exact responseBeats_of_step taken early

theorem opened_mem (walk : start.walk phases = some course) {side : Side} {opened : Phase}
    (on : phase.side? = some side) (closes : phase.closes? = some opened)
    (ended : phase ∈ phases) : opened ∈ phases := by
  obtain ⟨earlier, rest, rfl⟩ := List.append_of_mem ended
  rw [walk_append] at walk
  obtain ⟨reached, walked, later⟩ := Option.bind_eq_some_iff.mp walk
  obtain ⟨next, step, -⟩ := Option.bind_eq_some_iff.mp later
  have openBefore : reached.state.openPhase? side = some opened := by
    rw [(openPhase?_step step on).1, closes]
  rcases eq_start_or_exists_step walked with ⟨-, rfl⟩ | ⟨_, last, _, rfl, -, taken⟩
  · cases side <;> cases openBefore
  · rw [eq_of_openPhase? taken openBefore]
    simp

end Handshake.Course
