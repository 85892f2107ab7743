import Handshake.Proofs.Lifetime
set_option autoImplicit false

/-! The language of a transaction: the words of phases that take a machine from its idle
state to the end of its transaction, and end there. Early signals that do not begin a burst
are notifications; without them a word is a request, an answer to it and an ending, and what
ending there is depends on whether an acknowledgment is owed. -/

namespace Handshake

namespace Phase

def isEarly : Phase → Bool
  | writeValid | writeReady => true
  | _ => false

def beginsRequest (phase : Phase) : Bool := phase.isRequest && phase.isBegin

/-- The event that a phase is for the graph where it matters whether an acknowledgment
is owed. -/
def owing (owed : Bool) (phase : Phase) : Phase :=
  if phase = .endResponse ∧ owed then .endResponseNoAck else phase

private theorem isEarly_of_trigger? {start : WriteStart} {phase : Phase}
    (starts : start.trigger? = some phase) : phase.isEarly = true := by
  cases start <;> cases starts <;> rfl

private theorem not_isEarly_of_beginsRequest {phase : Phase} (begins : phase.beginsRequest = true) :
    phase.isEarly = false := by
  cases phase <;> first | rfl | cases begins

end Phase

/-! ### Words -/

def withoutEarly (word : List Phase) : List Phase := word.filter (fun phase => !phase.isEarly)

/-- What a machine hears of a word: everything but the early signals, and of these the first
that starts a burst if no request beat begins before it. -/
def heard (start : WriteStart) : List Phase → List Phase
  | [] => []
  | phase :: rest =>
      if start.trigger? = some phase ∨ phase.beginsRequest then phase :: withoutEarly rest
      else if phase.isEarly then heard start rest
      else phase :: heard start rest

def endings (owed : Bool) : List (List Phase) :=
  if owed then [[.endResponse, .acknowledge], [.endResponseNoAck, .acknowledge]]
  else [[.endResponse], [.endResponseNoAck, .acknowledge]]

def IsAnswer (owed : Bool) (word : List Phase) : Prop :=
  ∃ early ending, ending ∈ endings owed ∧
    word = beatsInRow early [.beginPartialResponse, .endPartialResponse] ++
      .beginResponse :: ending

/-- The end of the request may be left out before an answer. -/
def IsAcceptedAnswer (owed : Bool) (word : List Phase) : Prop :=
  ∃ answer, IsAnswer owed answer ∧ (word = answer ∨ word = .endRequest :: answer)

/-- The course of a transaction from its first request beat to its end. -/
def IsCourse (owed : Bool) (word : List Phase) : Prop :=
  ∃ early answer, IsAcceptedAnswer owed answer ∧
    word = beatsInRow early [.beginPartialRequest, .endPartialRequest] ++
      .beginRequest :: answer

/-- A whole transaction, which an early signal may start. -/
def IsWhole (start : WriteStart) (owed : Bool) (word : List Phase) : Prop :=
  ∃ course, IsCourse owed course ∧
    (word = course ∨ ∃ signal, start.trigger? = some signal ∧ word = signal :: course)

/-- The words of a language that are some repetitions of a beat and then a word without it:
Arden's rule. -/
theorem iff_exists_beatsInRow {language exit : List Phase → Prop} {opening closing : Phase}
    (once : ∀ word, language word ↔
      (∃ later, word = opening :: closing :: later ∧ language later) ∨ exit word)
    (word : List Phase) :
    language word ↔
      ∃ early rest, exit rest ∧ word = beatsInRow early [opening, closing] ++ rest := by
  constructor
  · intro member
    induction length : word.length using Nat.strongRecOn generalizing word with
    | ind size shorter =>
        rcases (once word).mp member with ⟨later, rfl, inside⟩ | leaves
        · obtain ⟨early, rest, leaves, rfl⟩ :=
            shorter later.length (by simp only [← length, List.length_cons]; omega) later
              inside rfl
          exact ⟨early + 1, rest, leaves, rfl⟩
        · exact ⟨0, word, leaves, rfl⟩
  · rintro ⟨early, rest, leaves, rfl⟩
    induction early with
    | zero => exact (once _).mpr (.inr leaves)
    | succ early ih => exact (once _).mpr (.inl ⟨_, rfl, ih⟩)

/-! ### A machine that hears no notifications -/

namespace State

section

variable (phase : Phase)

theorem step_idle : idle.step phase =
    if phase = .beginPartialRequest then
      some ⟨.partialRequest, [.requestPhaseBegin, .beginPartialRequest]⟩
    else if phase = .beginRequest then some ⟨.request, [.requestPhaseBegin, .beginRequest]⟩
    else if phase.isEarly then some ⟨.writeAnnounced, [.requestPhaseBegin, phase]⟩
    else none := by
  cases phase <;> rfl

theorem step_writeIdle : writeIdle.step phase =
    if phase = .beginPartialRequest then some ⟨.partialRequest, [.beginPartialRequest]⟩
    else if phase = .beginRequest then some ⟨.request, [.beginRequest]⟩
    else none := by
  cases phase <;> rfl

theorem step_writeAnnounced : writeAnnounced.step phase = writeIdle.step phase := by
  cases phase <;> rfl

theorem step_partialRequest : partialRequest.step phase =
    if phase = .endPartialRequest then some ⟨.writeIdle, [.endPartialRequest]⟩ else none := by
  cases phase <;> rfl

theorem step_request : request.step phase =
    if phase = .endRequest then some ⟨.waitForResponse, [.endRequest, .responsePhaseBegin]⟩
    else if phase = .beginResponse then some ⟨.response, [.responsePhaseBegin, .beginResponse]⟩
    else if phase = .beginPartialResponse then
      some ⟨.partialResponse, [.responsePhaseBegin, .beginPartialResponse]⟩
    else none := by
  cases phase <;> rfl

theorem step_readIdle : readIdle.step phase =
    if phase = .beginPartialResponse then some ⟨.partialResponse, [.beginPartialResponse]⟩
    else if phase = .beginResponse then some ⟨.response, [.beginResponse]⟩
    else none := by
  cases phase <;> rfl

theorem step_waitForResponse : waitForResponse.step phase = readIdle.step phase := by
  cases phase <;> rfl

theorem step_partialResponse : partialResponse.step phase =
    if phase = .endPartialResponse then some ⟨.readIdle, [.endPartialResponse]⟩ else none := by
  cases phase <;> rfl

theorem step_response : response.step phase =
    if phase = .endResponse then some ⟨.idle, [.endResponse]⟩
    else if phase = .endResponseNoAck then some ⟨.waitAck, [.endResponse]⟩
    else none := by
  cases phase <;> rfl

theorem step_waitAck : waitAck.step phase =
    if phase = .acknowledge then some ⟨.idle, [.acknowledge]⟩ else none := by
  cases phase <;> rfl

end

/-- The word takes the machine to the idle state, and only at its end. -/
def ends (owed : Bool) : State → List Phase → Prop
  | _, [] => False
  | state, phase :: rest =>
      match state.step (phase.owing owed) with
      | none => False
      | some move => if move.next = .idle then rest = [] else ends owed move.next rest

variable {owed : Bool} {word rest : List Phase} {phase : Phase}

theorem ends_nil (state : State) : state.ends owed [] = False := rfl

theorem ends_cons (state : State) :
    state.ends owed (phase :: rest) =
      match state.step (phase.owing owed) with
      | none => False
      | some move => if move.next = .idle then rest = [] else move.next.ends owed rest := rfl

private theorem not_ends_cons_of_stuck {state : State}
    (stuck : state.step (phase.owing owed) = none) :
    ¬ state.ends owed (phase :: rest) := by
  simp only [ends_cons, stuck, not_false_eq_true]

theorem ends_waitAck_iff : waitAck.ends owed word ↔ word = [.acknowledge] := by
  cases word with
  | nil => simp [ends_nil]
  | cons phase rest =>
      cases owed <;> cases phase <;> simp [ends_cons, Phase.owing, step_waitAck]

theorem ends_response_iff : response.ends owed word ↔ word ∈ endings owed := by
  cases word with
  | nil => cases owed <;> simp [ends_nil, endings]
  | cons phase rest =>
      cases owed <;> cases phase <;>
        simp [ends_cons, Phase.owing, step_response, endings, ends_waitAck_iff]

theorem ends_partialResponse_iff : partialResponse.ends owed word ↔
    ∃ later, word = .endPartialResponse :: later ∧ readIdle.ends owed later := by
  cases word with
  | nil => simp [ends_nil]
  | cons phase rest =>
      cases owed <;> cases phase <;> simp [ends_cons, Phase.owing, step_partialResponse]

theorem ends_readIdle_iff : readIdle.ends owed word ↔ IsAnswer owed word := by
  have once : ∀ word, readIdle.ends owed word ↔
      (∃ later, word = .beginPartialResponse :: .endPartialResponse :: later ∧
        readIdle.ends owed later) ∨
      ∃ ending ∈ endings owed, word = .beginResponse :: ending := by
    intro word
    cases word with
    | nil => simp [ends_nil]
    | cons phase rest =>
        cases owed <;> cases phase <;>
          simp [ends_cons, Phase.owing, step_readIdle, ends_partialResponse_iff, ends_response_iff]
  rw [iff_exists_beatsInRow once]
  constructor
  · rintro ⟨early, rest, ⟨ending, member, rfl⟩, rfl⟩
    exact ⟨early, ending, member, rfl⟩
  · rintro ⟨early, ending, member, rfl⟩
    exact ⟨early, _, ⟨ending, member, rfl⟩, rfl⟩

theorem ends_waitForResponse_iff : waitForResponse.ends owed word ↔ IsAnswer owed word := by
  rw [← ends_readIdle_iff]
  cases word with
  | nil => rfl
  | cons phase rest => rw [ends_cons, ends_cons, step_waitForResponse]

theorem ends_request_iff : request.ends owed word ↔ IsAcceptedAnswer owed word := by
  have alike : ∀ word, request.ends owed word ↔
      IsAnswer owed word ∨ ∃ answer, word = .endRequest :: answer ∧ IsAnswer owed answer := by
    intro word
    rw [← ends_readIdle_iff]
    cases word with
    | nil => simp [ends_nil]
    | cons phase rest =>
        cases owed <;> cases phase <;>
          simp [ends_cons, Phase.owing, step_request, step_readIdle, ends_waitForResponse_iff]
  rw [alike]
  constructor
  · rintro (answer | ⟨answer, rfl, inside⟩)
    · exact ⟨word, answer, .inl rfl⟩
    · exact ⟨answer, inside, .inr rfl⟩
  · rintro ⟨answer, inside, rfl | rfl⟩
    · exact .inl inside
    · exact .inr ⟨answer, rfl, inside⟩

theorem ends_partialRequest_iff : partialRequest.ends owed word ↔
    ∃ later, word = .endPartialRequest :: later ∧ writeIdle.ends owed later := by
  cases word with
  | nil => simp [ends_nil]
  | cons phase rest =>
      cases owed <;> cases phase <;> simp [ends_cons, Phase.owing, step_partialRequest]

theorem ends_writeIdle_iff : writeIdle.ends owed word ↔ IsCourse owed word := by
  have once : ∀ word, writeIdle.ends owed word ↔
      (∃ later, word = .beginPartialRequest :: .endPartialRequest :: later ∧
        writeIdle.ends owed later) ∨
      ∃ answer, IsAcceptedAnswer owed answer ∧ word = .beginRequest :: answer := by
    intro word
    cases word with
    | nil => simp [ends_nil]
    | cons phase rest =>
        cases owed <;> cases phase <;>
          simp [ends_cons, Phase.owing, step_writeIdle, ends_partialRequest_iff, ends_request_iff]
  rw [iff_exists_beatsInRow once]
  constructor
  · rintro ⟨early, rest, ⟨answer, accepted, rfl⟩, rfl⟩
    exact ⟨early, answer, accepted, rfl⟩
  · rintro ⟨early, answer, accepted, rfl⟩
    exact ⟨early, _, ⟨answer, accepted, rfl⟩, rfl⟩

theorem ends_writeAnnounced_iff : writeAnnounced.ends owed word ↔ IsCourse owed word := by
  rw [← ends_writeIdle_iff]
  cases word with
  | nil => rfl
  | cons phase rest => rw [ends_cons, ends_cons, step_writeAnnounced]

end State

/-! ### A machine that is told everything -/

def LastIsHeard (word : List Phase) : Prop := ∀ phase ∈ word.getLast?, phase.isEarly = false

section

variable {word rest : List Phase} {phase : Phase}

private theorem lastIsHeard_cons_iff :
    LastIsHeard (phase :: rest) ↔
      (rest = [] ∧ phase.isEarly = false) ∨ (rest ≠ [] ∧ LastIsHeard rest) := by
  cases rest with
  | nil => simp [LastIsHeard]
  | cons next later => simp [LastIsHeard, List.getLast?_cons_cons]

private theorem eq_nil_of_withoutEarly (last : LastIsHeard word)
    (nothing : withoutEarly word = []) :
    word = [] := by
  cases ends : word.getLast? with
  | none => exact List.getLast?_eq_none_iff.mp ends
  | some phase =>
      have loud := last phase ends
      have member : phase ∈ withoutEarly word :=
        List.mem_filter.mpr ⟨List.mem_of_getLast? ends, by simp [loud]⟩
      rw [nothing] at member
      cases member

end

namespace State

variable {start : WriteStart} {owed : Bool} {word rest : List Phase} {phase : Phase}

/-- The event that a phase is for the graph. A notification is none. -/
def trigger? (start : WriteStart) (owed : Bool) (state : State) (phase : Phase) : Option Phase :=
  if phase.isEarly then
    if start.trigger? = some phase ∧ state = .idle then some phase else none
  else some (phase.owing owed)

/-- The word takes the transaction of the machine to its end, and only with its last
phase. -/
def finishes (start : WriteStart) (owed : Bool) : State → List Phase → Prop
  | _, [] => False
  | state, phase :: rest =>
      match state.trigger? start owed phase with
      | none => finishes start owed state rest
      | some trigger =>
          match state.step trigger with
          | none => False
          | some move => if move.next = .idle then rest = [] else finishes start owed move.next rest

private theorem trigger?_of_loud (state : State) (loud : phase.isEarly = false) :
    state.trigger? start owed phase = some (phase.owing owed) := by
  simp only [trigger?, loud, Bool.false_eq_true, if_false]

theorem finishes_cons_of_notified {state : State}
    (notified : state.trigger? start owed phase = none) :
    state.finishes start owed (phase :: rest) ↔ state.finishes start owed rest := by
  simp only [finishes, notified]

private theorem finishes_iff_ends {state : State} (busy : state ≠ .idle) :
    state.finishes start owed word ↔ LastIsHeard word ∧ state.ends owed (withoutEarly word) := by
  induction word generalizing state with
  | nil => simp [finishes, ends_nil, withoutEarly]
  | cons phase rest ih =>
      rw [lastIsHeard_cons_iff]
      cases early : phase.isEarly with
      | true =>
          have notified : state.trigger? start owed phase = none := by
            simp [trigger?, early, busy]
          have skipped : withoutEarly (phase :: rest) = withoutEarly rest := by
            simp [withoutEarly, early]
          rw [finishes_cons_of_notified notified, skipped, ih busy]
          cases rest with
          | nil => simp [withoutEarly, ends_nil]
          | cons next later => simp
      | false =>
          have kept : withoutEarly (phase :: rest) = phase :: withoutEarly rest := by
            simp [withoutEarly, early]
          rw [kept]
          simp only [finishes, ends_cons, trigger?_of_loud state early]
          cases step : state.step (phase.owing owed) with
          | none => simp
          | some move =>
              by_cases idle : move.next = .idle
              · simp only [if_pos idle, and_true]
                constructor
                · rintro rfl
                  exact ⟨.inl rfl, rfl⟩
                · rintro ⟨rfl | ⟨-, last⟩, nothing⟩
                  · rfl
                  · exact eq_nil_of_withoutEarly last nothing
              · simp only [if_neg idle, ih idle]
                cases rest with
                | nil => simp [withoutEarly, ends_nil]
                | cons next later => simp

private theorem isWhole_iff :
    IsWhole start owed word ↔
      writeIdle.ends owed word ∨
        ∃ signal rest, start.trigger? = some signal ∧ word = signal :: rest ∧
          writeIdle.ends owed rest := by
  simp only [ends_writeIdle_iff]
  constructor
  · rintro ⟨course, inside, rfl | ⟨signal, starts, rfl⟩⟩
    · exact .inl inside
    · exact .inr ⟨signal, course, starts, rfl, inside⟩
  · rintro (inside | ⟨signal, course, starts, rfl, inside⟩)
    · exact ⟨word, inside, .inl rfl⟩
    · exact ⟨course, inside, .inr ⟨signal, starts, rfl⟩⟩

private theorem finishes_idle_of_start (starts : start.trigger? = some phase) :
    idle.finishes start owed (phase :: rest) ↔
      LastIsHeard (phase :: rest) ∧ IsWhole start owed (phase :: withoutEarly rest) := by
  have early := Phase.isEarly_of_trigger? starts
  have moves : idle.finishes start owed (phase :: rest) ↔
      writeAnnounced.finishes start owed rest := by
    cases phase <;> cases early <;> simp [finishes, trigger?, Phase.isEarly, starts, step_idle]
  have begun : ¬ writeIdle.ends owed (phase :: withoutEarly rest) := by
    cases phase <;> cases early <;> simp [ends_cons, Phase.owing, step_writeIdle]
  rw [moves, finishes_iff_ends (by decide), ends_writeAnnounced_iff, ← ends_writeIdle_iff,
    isWhole_iff, lastIsHeard_cons_iff]
  simp only [begun, false_or, early]
  constructor
  · rintro ⟨last, inside⟩
    refine ⟨.inr ⟨?_, last⟩, phase, _, starts, rfl, inside⟩
    rintro rfl
    exact inside
  · rintro ⟨⟨-, heard⟩ | ⟨-, last⟩, signal, later, -, same, inside⟩
    · cases heard
    · cases same
      exact ⟨last, inside⟩

private theorem finishes_idle_of_beginsRequest (begins : phase.beginsRequest = true) :
    idle.finishes start owed (phase :: rest) ↔
      LastIsHeard (phase :: rest) ∧ IsWhole start owed (phase :: withoutEarly rest) := by
  have loud := Phase.not_isEarly_of_beginsRequest begins
  have unstarted : start.trigger? ≠ some phase := by
    intro starts
    rw [Phase.isEarly_of_trigger? starts] at loud
    cases loud
  have whole : IsWhole start owed (phase :: withoutEarly rest) ↔
      writeIdle.ends owed (phase :: withoutEarly rest) := by
    rw [isWhole_iff]
    constructor
    · rintro (inside | ⟨signal, later, starts, same, -⟩)
      · exact inside
      · cases same
        exact absurd starts unstarted
    · exact .inl
  obtain ⟨move, busy, fromIdle, fromBetween⟩ : ∃ move : Move, move.next ≠ .idle ∧
      (idle.finishes start owed (phase :: rest) ↔ move.next.finishes start owed rest) ∧
        (writeIdle.ends owed (phase :: withoutEarly rest) ↔
          move.next.ends owed (withoutEarly rest)) := by
    cases phase with
    | beginPartialRequest =>
        refine ⟨⟨.partialRequest, []⟩, by decide, ?_, ?_⟩
        · simp [finishes, trigger?, Phase.isEarly, Phase.owing, step_idle]
        · simp [ends_cons, Phase.owing, step_writeIdle]
    | beginRequest =>
        refine ⟨⟨.request, []⟩, by decide, ?_, ?_⟩
        · simp [finishes, trigger?, Phase.isEarly, Phase.owing, step_idle]
        · simp [ends_cons, Phase.owing, step_writeIdle]
    | _ => cases begins
  rw [whole, fromIdle, fromBetween, finishes_iff_ends busy, lastIsHeard_cons_iff]
  cases rest with
  | nil => simp [withoutEarly, ends_nil]
  | cons next later => simp

private theorem stuck_of_loud (loud : phase.isEarly = false) (later : phase.beginsRequest = false) :
    idle.step (phase.owing owed) = none ∧ writeIdle.step (phase.owing owed) = none := by
  revert loud later
  cases owed <;> cases phase <;> decide

/-- The words that an idle machine takes to the end of a transaction: heard without their
notifications they are a whole transaction, and no notification comes last. -/
theorem finishes_idle_iff :
    idle.finishes start owed word ↔ LastIsHeard word ∧ IsWhole start owed (heard start word) := by
  induction word with
  | nil => simp [finishes, heard, isWhole_iff, ends_nil]
  | cons phase rest ih =>
      by_cases opens : start.trigger? = some phase ∨ phase.beginsRequest = true
      · rw [heard, if_pos opens]
        rcases opens with starts | begins
        · exact finishes_idle_of_start starts
        · exact finishes_idle_of_beginsRequest begins
      · rw [heard, if_neg opens]
        obtain ⟨unstarted, closed⟩ := not_or.mp opens
        cases early : phase.isEarly with
        | true =>
            have notified : idle.trigger? start owed phase = none := by
              simp [trigger?, early, unstarted]
            rw [finishes_cons_of_notified notified, ih, if_pos rfl, lastIsHeard_cons_iff]
            cases rest with
            | nil => simp [heard, isWhole_iff, ends_nil, early]
            | cons next later => simp
        | false =>
            obtain ⟨fromIdle, fromBetween⟩ :=
              @stuck_of_loud owed phase early (Bool.eq_false_iff.mpr closed)
            have refused : ¬ idle.finishes start owed (phase :: rest) := by
              simp only [finishes, trigger?_of_loud idle early, fromIdle, not_false_eq_true]
            have outside : ¬ IsWhole start owed (phase :: heard start rest) := by
              rw [isWhole_iff]
              rintro (inside | ⟨signal, later, starts, same, -⟩)
              · exact not_ends_cons_of_stuck fromBetween inside
              · cases same
                exact unstarted starts
            simp [refused, outside]

end State

end Handshake
