import Mathlib.Data.List.Induction
import Handshake.Checker.Violation
import Handshake.Machine
set_option autoImplicit false

/-! The course of a transaction through the phase graph. `State.walk` follows the graph
itself. `Course.walk` follows the part of it that a transaction stays in whose request is
accepted before it is answered, and counts the beats on either side. -/

namespace Handshake

namespace Phase

def side? : Phase → Option Side
  | beginPartialRequest | endPartialRequest | beginRequest | endRequest => some .request
  | beginPartialResponse | endPartialResponse | beginResponse | endResponse => some .response
  | requestPhaseBegin | writeValid | writeReady | responsePhaseBegin | endResponseNoAck
  | acknowledge => none

def isHandshake (phase : Phase) : Bool := phase.isRequest || phase.isResponse

/-- The phase that must be open when a phase comes: an end closes its own beginning,
and a beginning closes none. -/
def closes? : Phase → Option Phase
  | endPartialRequest => some beginPartialRequest
  | endRequest => some beginRequest
  | endPartialResponse => some beginPartialResponse
  | endResponse => some beginResponse
  | _ => none

def opens? (phase : Phase) : Option Phase := if phase.isBegin then some phase else none

/-- The completed beats of a side after a phase on it, if it is in progress. -/
def countBeats : Phase → Option Nat → Option Nat
  | endPartialRequest, beats | endPartialResponse, beats => some (beats.getD 0 + 1)
  | endRequest, _ | endResponse, _ => none
  | _, beats => some (beats.getD 0)

theorem side?_isSome_iff (phase : Phase) : phase.side?.isSome ↔ phase.isHandshake = true := by
  cases phase <;> decide

theorem side?_isSome_of_isBegin {phase : Phase} (begins : phase.isBegin = true) :
    phase.side?.isSome = true := by
  revert begins
  cases phase <;> decide

theorem isBegin_of_closes? {phase opened : Phase} (closes : phase.closes? = some opened) :
    phase.isBegin = false := by
  cases phase <;> cases closes <;> rfl

theorem closes?_isSome_of_isBegin {phase : Phase} (ends : phase.isBegin = false)
    (handshake : phase.isHandshake = true) : phase.closes?.isSome = true := by
  revert ends handshake
  cases phase <;> decide

theorem isBegin_of_closes?_eq_none {phase : Phase} (closes : phase.closes? = none)
    (handshake : phase.isHandshake = true) : phase.isBegin = true := by
  revert closes handshake
  cases phase <;> decide

theorem isRequest_of_side? {phase : Phase} (on : phase.side? = some .request) :
    phase.isRequest = true := by
  cases phase <;> cases on <;> rfl

theorem isResponse_of_side? {phase : Phase} (on : phase.side? = some .response) :
    phase.isResponse = true := by
  cases phase <;> cases on <;> rfl

theorem isResponse_of_isRequest {phase : Phase} (request : phase.isRequest = true) :
    phase.isResponse = false := by
  cases phase <;> cases request <;> rfl

theorem isRequest_of_isResponse {phase : Phase} (response : phase.isResponse = true) :
    phase.isRequest = false := by
  cases phase <;> cases response <;> rfl

theorem begins_of_isRequest {phase : Phase} (request : phase.isRequest = true)
    (begins : phase.isBegin = true) : phase = beginPartialRequest ∨ phase = beginRequest := by
  revert request begins
  cases phase <;> decide

theorem begins_of_isResponse {phase : Phase} (response : phase.isResponse = true)
    (begins : phase.isBegin = true) : phase = beginPartialResponse ∨ phase = beginResponse := by
  revert response begins
  cases phase <;> decide

end Phase

/-! ### Paths of the graph -/

def State.walk : State → List Phase → Option State
  | state, [] => some state
  | state, phase :: rest => (state.step phase).bind (fun move => move.next.walk rest)

theorem State.walk_append_singleton (state : State) (phases : List Phase) (phase : Phase) :
    state.walk (phases ++ [phase]) =
      (state.walk phases).bind (fun reached => (reached.step phase).map Move.next) := by
  induction phases generalizing state with
  | nil =>
      simp only [List.nil_append, walk, Option.bind_some]
      cases state.step phase <;> rfl
  | cons first rest ih =>
      simp only [List.cons_append, walk]
      cases state.step first with
      | none => rfl
      | some move => exact ih move.next

theorem State.isSome_walk_of_append {state : State} {before after : List Phase}
    (path : (state.walk (before ++ after)).isSome = true) :
    (state.walk before).isSome = true := by
  induction before generalizing state with
  | nil => rfl
  | cons first rest ih =>
      rw [List.cons_append, walk] at path
      rw [walk]
      cases step : state.step first with
      | none =>
          rw [step] at path
          cases path
      | some move =>
          rw [step] at path
          exact ih path

namespace State

def openPhase? : Side → State → Option Phase
  | .request, partialRequest => some .beginPartialRequest
  | .request, request => some .beginRequest
  | .response, partialResponse => some .beginPartialResponse
  | .response, response => some .beginResponse
  | _, _ => none

def within : Side → State → Bool
  | .request, partialRequest | .request, writeIdle | .request, request => true
  | .response, partialResponse | .response, readIdle | .response, response => true
  | _, _ => false

def isAccepted : State → Bool
  | waitForResponse | partialResponse | readIdle | response => true
  | _ => false

/-- The states that neither an early signal nor a postponed acknowledgment leads to. -/
def isPlain : State → Bool
  | writeAnnounced | waitAck => false
  | _ => true

theorem moves_of_closes {state : State} {phase opened : Phase} {side : Side}
    (on : phase.side? = some side) (closes : phase.closes? = some opened)
    (here : state.openPhase? side = some opened) : ∃ move, state.step phase = some move := by
  cases phase <;> cases on <;> cases closes <;> cases state <;> cases here <;> exact ⟨_, rfl⟩

theorem moves_of_begin_request {state : State} {phase : Phase}
    (begins : phase = .beginPartialRequest ∨ phase = .beginRequest)
    (closed : state.openPhase? .request = none) (unaccepted : state.isAccepted = false)
    (plain : state.isPlain = true) : ∃ move, state.step phase = some move := by
  rcases begins with rfl | rfl
  all_goals
    cases state with
    | idle | writeAnnounced | writeIdle => exact ⟨_, rfl⟩
    | partialRequest | request => cases closed
    | waitForResponse | partialResponse | readIdle | response => cases unaccepted
    | waitAck => cases plain

theorem moves_of_begin_response {state : State} {phase : Phase}
    (begins : phase = .beginPartialResponse ∨ phase = .beginResponse)
    (closed : state.openPhase? .response = none) (accepted : state.isAccepted = true) :
    ∃ move, state.step phase = some move := by
  rcases begins with rfl | rfl
  all_goals
    cases state with
    | waitForResponse | readIdle => exact ⟨_, rfl⟩
    | partialResponse | response => cases closed
    | _ => cases accepted

theorem begins_of_idle_step {phase : Phase} {move : Move} (step : idle.step phase = some move)
    (request : phase.isRequest = true) :
    phase = .beginPartialRequest ∨ phase = .beginRequest := by
  cases phase with
  | beginPartialRequest => exact .inl rfl
  | beginRequest => exact .inr rfl
  | writeValid | writeReady => cases request
  | _ => cases step

theorem isBegin_of_request_step {phase : Phase} {move : Move}
    (step : request.step phase = some move) (response : phase.isResponse = true) :
    phase.isBegin = true := by
  cases phase with
  | beginPartialResponse | beginResponse => rfl
  | endRequest => cases response
  | _ => cases step

theorem within_of_openPhase? {state : State} {side : Side} {phase : Phase}
    (opened : state.openPhase? side = some phase) : state.within side = true := by
  cases state <;> cases side <;> cases opened <;> rfl

theorem isAccepted_of_within_response {state : State}
    (within : state.within .response = true) : state.isAccepted = true := by
  cases state <;> first | rfl | cases within

theorem isBegin_of_waitForResponse_step {phase : Phase} {move : Move}
    (step : waitForResponse.step phase = some move) : phase.isBegin = true := by
  cases phase <;> first | rfl | cases step

end State

/-! ### Courses -/

structure Course where
  state : State
  requestBeats : Nat
  responseBeats : Nat
  deriving DecidableEq

namespace Course

def start : Course := ⟨.idle, 0, 0⟩

/-- The graph without its early signals, without its acknowledgment and without the way
from an open request straight into a response. -/
def step (course : Course) (phase : Phase) : Option Course :=
  match course.state, phase with
  | .idle, .beginPartialRequest => some ⟨.partialRequest, 0, 0⟩
  | .idle, .beginRequest => some ⟨.request, 0, 0⟩
  | .partialRequest, .endPartialRequest => some ⟨.writeIdle, course.requestBeats + 1, 0⟩
  | .writeIdle, .beginPartialRequest => some ⟨.partialRequest, course.requestBeats, 0⟩
  | .writeIdle, .beginRequest => some ⟨.request, course.requestBeats, 0⟩
  | .request, .endRequest => some ⟨.waitForResponse, course.requestBeats, 0⟩
  | .waitForResponse, .beginPartialResponse => some ⟨.partialResponse, course.requestBeats, 0⟩
  | .waitForResponse, .beginResponse => some ⟨.response, course.requestBeats, 0⟩
  | .partialResponse, .endPartialResponse =>
      some ⟨.readIdle, course.requestBeats, course.responseBeats + 1⟩
  | .readIdle, .beginPartialResponse =>
      some ⟨.partialResponse, course.requestBeats, course.responseBeats⟩
  | .readIdle, .beginResponse => some ⟨.response, course.requestBeats, course.responseBeats⟩
  | .response, .endResponse => some ⟨.idle, course.requestBeats, course.responseBeats⟩
  | _, _ => none

def walk : Course → List Phase → Option Course
  | course, [] => some course
  | course, phase :: rest => (course.step phase).bind (fun next => next.walk rest)

def beats? (course : Course) : Side → Option Nat
  | .request => if course.state.within .request then some course.requestBeats else none
  | .response => if course.state.within .response then some course.responseBeats else none

theorem walk_append (course : Course) (before after : List Phase) :
    course.walk (before ++ after) =
      (course.walk before).bind (fun reached => reached.walk after) := by
  induction before generalizing course with
  | nil => rfl
  | cons first rest ih =>
      simp only [List.cons_append, walk]
      cases course.step first with
      | none => rfl
      | some next => exact ih next

theorem walk_append_singleton (course : Course) (phases : List Phase) (phase : Phase) :
    course.walk (phases ++ [phase]) =
      (course.walk phases).bind (fun reached => reached.step phase) := by
  rw [walk_append]
  congr 1
  funext reached
  simp only [walk]
  cases reached.step phase <;> rfl

/-! ### What a step does -/

theorem step_state {course next : Course} {phase : Phase} (step : course.step phase = some next) :
    (course.state.step phase).map Move.next = some next.state := by
  obtain ⟨state, requestBeats, responseBeats⟩ := course
  cases state <;> cases phase <;> cases step <;> rfl

theorem step_of_state {course : Course} {phase : Phase} {move : Move}
    (step : course.state.step phase = some move) (handshake : phase.isHandshake = true)
    (plain : course.state.isPlain = true)
    (accepted : course.state = .request → phase.isResponse = false) :
    ∃ next, course.step phase = some next ∧ next.state = move.next := by
  obtain ⟨state, requestBeats, responseBeats⟩ := course
  cases state <;> cases phase <;> cases step <;>
    first
    | exact ⟨_, rfl, rfl⟩
    | exact absurd plain Bool.false_ne_true
    | exact absurd (accepted rfl).symm Bool.false_ne_true
    | exact absurd handshake Bool.false_ne_true

theorem step_isPlain {course next : Course} {phase : Phase}
    (step : course.step phase = some next) : next.state.isPlain = true := by
  obtain ⟨state, requestBeats, responseBeats⟩ := course
  cases state <;> cases phase <;> cases step <;> rfl

theorem walk_isPlain {course reached : Course} {phases : List Phase}
    (walk : course.walk phases = some reached) (plain : course.state.isPlain = true) :
    reached.state.isPlain = true := by
  induction phases generalizing course with
  | nil =>
      cases walk
      exact plain
  | cons first rest ih =>
      obtain ⟨next, step, later⟩ := Option.bind_eq_some_iff.mp walk
      exact ih later (step_isPlain step)

theorem walk_state {course reached : Course} {phases : List Phase}
    (walk : course.walk phases = some reached) :
    course.state.walk phases = some reached.state := by
  induction phases generalizing course with
  | nil =>
      cases walk
      rfl
  | cons first rest ih =>
      obtain ⟨next, step, later⟩ := Option.bind_eq_some_iff.mp walk
      obtain ⟨move, moved, target⟩ := Option.map_eq_some_iff.mp (step_state step)
      rw [State.walk, moved, Option.bind_some, target]
      exact ih later

/-- The phase that a step closes was open, and afterwards the one that it opens is. -/
theorem openPhase?_step {course next : Course} {phase : Phase} {side : Side}
    (step : course.step phase = some next) (on : phase.side? = some side) :
    course.state.openPhase? side = phase.closes? ∧ next.state.openPhase? side = phase.opens? := by
  obtain ⟨state, requestBeats, responseBeats⟩ := course
  cases state <;> cases phase <;> cases step <;> cases on <;> exact ⟨rfl, rfl⟩

theorem openPhase?_step_of_ne {course next : Course} {phase : Phase} {side : Side}
    (step : course.step phase = some next) (off : phase.side? ≠ some side) :
    course.state.openPhase? side = none ∧ next.state.openPhase? side = none := by
  obtain ⟨state, requestBeats, responseBeats⟩ := course
  cases state <;> cases phase <;> cases step <;> cases side <;>
    first
    | exact ⟨rfl, rfl⟩
    | exact absurd rfl off

theorem beats?_step {course next : Course} {phase : Phase} {side : Side}
    (step : course.step phase = some next) (on : phase.side? = some side) :
    next.beats? side = phase.countBeats (course.beats? side) := by
  obtain ⟨state, requestBeats, responseBeats⟩ := course
  cases state <;> cases phase <;> cases step <;> cases on <;> rfl

theorem beats?_step_of_ne {course next : Course} {phase : Phase} {side : Side}
    (step : course.step phase = some next) (off : phase.side? ≠ some side) :
    next.beats? side = course.beats? side := by
  obtain ⟨state, requestBeats, responseBeats⟩ := course
  cases state <;> cases phase <;> cases step <;> cases side <;>
    first
    | rfl
    | exact absurd rfl off

theorem begins_of_idle {course next : Course} {phase : Phase} (idle : course.state = .idle)
    (step : course.step phase = some next) :
    phase = .beginPartialRequest ∨ phase = .beginRequest := by
  obtain ⟨state, requestBeats, responseBeats⟩ := course
  cases idle
  cases phase <;> cases step
  · exact .inl rfl
  · exact .inr rfl

theorem within_request_of_step {course next : Course} {phase : Phase}
    (step : course.step phase = some next) :
    course.state.within .request = (phase.isRequest && course.state ≠ .idle) := by
  obtain ⟨state, requestBeats, responseBeats⟩ := course
  cases state <;> cases phase <;> cases step <;> rfl

theorem within_request_step {course next : Course} {phase : Phase}
    (step : course.step phase = some next) :
    next.state.within .request = (phase.isRequest && phase ≠ .endRequest) := by
  obtain ⟨state, requestBeats, responseBeats⟩ := course
  cases state <;> cases phase <;> cases step <;> rfl

theorem endRequest_of_waitForResponse {course next : Course} {phase : Phase}
    (step : course.step phase = some next) (waits : next.state = .waitForResponse) :
    phase = .endRequest := by
  obtain ⟨state, requestBeats, responseBeats⟩ := course
  cases state <;> cases phase <;> cases step <;> cases waits
  rfl

theorem eq_start_or_exists_step {phases : List Phase} {course : Course}
    (walk : start.walk phases = some course) :
    (phases = [] ∧ course = start) ∨
      ∃ earlier last reached, phases = earlier ++ [last] ∧
        start.walk earlier = some reached ∧ reached.step last = some course := by
  rcases List.eq_nil_or_concat phases with rfl | ⟨earlier, last, rfl⟩
  · exact .inl ⟨rfl, (Option.some.inj walk).symm⟩
  · rw [List.concat_eq_append] at walk ⊢
    rw [walk_append_singleton] at walk
    obtain ⟨reached, walked, step⟩ := Option.bind_eq_some_iff.mp walk
    exact .inr ⟨earlier, last, reached, rfl, walked, step⟩

theorem exists_isRequest {phases : List Phase} {course : Course}
    (walk : start.walk phases = some course) (within : course.state.within .request = true) :
    ∃ phase ∈ phases, phase.isRequest = true := by
  rcases eq_start_or_exists_step walk with ⟨-, rfl⟩ | ⟨_, last, _, rfl, -, step⟩
  · cases within
  · rw [within_request_step step, Bool.and_eq_true] at within
    exact ⟨last, by simp, within.1⟩

theorem within_response_of_step {course next : Course} {phase : Phase}
    (step : course.step phase = some next) :
    course.state.within .response = (phase.isResponse && course.state ≠ .waitForResponse) := by
  obtain ⟨state, requestBeats, responseBeats⟩ := course
  cases state <;> cases phase <;> cases step <;> rfl

theorem within_response_of_endResponse {course next : Course}
    (step : course.step .endResponse = some next) : course.state.within .response = true := by
  obtain ⟨state, requestBeats, responseBeats⟩ := course
  cases state <;> cases step
  rfl

theorem within_response_step {course next : Course} {phase : Phase}
    (step : course.step phase = some next) :
    next.state.within .response = (phase.isResponse && phase ≠ .endResponse) := by
  obtain ⟨state, requestBeats, responseBeats⟩ := course
  cases state <;> cases phase <;> cases step <;> rfl

theorem isAccepted_step {course next : Course} {phase : Phase}
    (step : course.step phase = some next) :
    course.state.isAccepted = phase.isResponse ∧
      next.state.isAccepted =
        (phase = .endRequest || (phase.isResponse && phase ≠ .endResponse)) := by
  obtain ⟨state, requestBeats, responseBeats⟩ := course
  cases state <;> cases phase <;> cases step <;> exact ⟨rfl, rfl⟩

/-- A request is accepted as long as its end is the last of the ends. -/
theorem isAccepted_iff_of_walk {phases : List Phase} {course : Course}
    (walk : start.walk phases = some course) :
    course.state.isAccepted = true ↔
      (phases.filter (fun phase => phase = .endRequest ∨ phase = .endResponse)).getLast? =
        some .endRequest := by
  induction phases using List.reverseRecOn generalizing course with
  | nil =>
      cases walk
      simp [start, State.isAccepted]
  | append_singleton before phase ih =>
      rw [walk_append_singleton] at walk
      obtain ⟨reached, earlier, step⟩ := Option.bind_eq_some_iff.mp walk
      obtain ⟨isResponse, after⟩ := isAccepted_step step
      rw [after, List.filter_append]
      by_cases request : phase = .endRequest
      · simp [request]
      · by_cases response : phase = .endResponse
        · simp [response]
        · rw [List.filter_cons_of_neg (by simp [request, response]), List.filter_nil,
            List.append_nil, ← ih earlier, isResponse]
          simp [request, response]

end Course

end Handshake
