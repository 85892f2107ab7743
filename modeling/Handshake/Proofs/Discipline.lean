import Handshake.Proofs.Language
set_option autoImplicit false

/-! The slots that a machine fires, from its idle state on until it is idle again. Some
notifications may come first; then the request begins, with its beats in turn, then the
response with its beats, and at the end the acknowledgment if the machine waited for it.
Notifications may come anywhere in between. -/

namespace Handshake

/-- A callback that ran: its slot, and whether it ran for a mere notification. -/
structure Firing where
  slot : Phase
  notice : Bool
  deriving DecidableEq

def slotsOf (fired : List Firing) : List Phase := fired.map Firing.slot

def firingsFor (notice : Bool) (slots : List Phase) : List Firing :=
  slots.map (fun slot => ⟨slot, notice⟩)

def OpensRequest (fired : List Firing) : Prop :=
  ∃ before after, fired = before ++ ⟨.requestPhaseBegin, false⟩ :: after ∧
    ∀ firing ∈ before, firing.notice = true ∧ firing.slot.isEarly = true

/-- No `first` fires after a `second`. -/
def Precedes (first second : Phase) (slots : List Phase) : Prop :=
  ∀ before after, slots = before ++ second :: after → first ∉ after

/-- Of all slots of a side, the closing one is the next after each opening one. -/
def ClosesNext (opening closing : Phase) (side : Phase → Bool) (slots : List Phase) : Prop :=
  ∀ before after, slots = before ++ opening :: after → after.find? side = some closing

/-- The order in which the callbacks of a transaction run. -/
structure Disciplined (fired : List Firing) (acknowledged : Prop) : Prop where
  opens : OpensRequest fired
  once : ∀ slot ∈ [.requestPhaseBegin, .beginRequest, .responsePhaseBegin, .beginResponse,
    .endResponse], (slotsOf fired).count slot = 1
  endRequest : (slotsOf fired).count .endRequest ≤ 1
  afterRequest : Precedes .beginRequest .responsePhaseBegin (slotsOf fired) ∧
    Precedes .endRequest .responsePhaseBegin (slotsOf fired)
  beforeResponse : Precedes .responsePhaseBegin .beginPartialResponse (slotsOf fired) ∧
    Precedes .responsePhaseBegin .beginResponse (slotsOf fired)
  requestBeats :
    ClosesNext .beginPartialRequest .endPartialRequest Phase.isRequest (slotsOf fired)
  responseBeats :
    ClosesNext .beginPartialResponse .endPartialResponse Phase.isResponse (slotsOf fired)
  response : Precedes .beginResponse .endResponse (slotsOf fired)
  acknowledge : acknowledged →
    ∃ before, slotsOf fired = before ++ [.acknowledge] ∧ .acknowledge ∉ before
  unacknowledged : ¬ acknowledged → .acknowledge ∉ slotsOf fired

/-! ### Order in a word -/

section

variable {first second opening closing : Phase} {side : Phase → Bool}
  {before after slots : List Phase}

theorem precedes_append (onlyBefore : first ∉ after) (onlyAfter : second ∉ before) :
    Precedes first second (before ++ after) := by
  intro left right split member
  rcases List.append_eq_append_iff.mp split with ⟨middle, -, rest⟩ | ⟨middle, leads, rest⟩
  · rw [rest] at onlyBefore
    exact onlyBefore (List.mem_append_right _ (List.mem_cons_of_mem _ member))
  · rcases List.cons_eq_append_iff.mp rest with ⟨-, rest⟩ | ⟨tail, rfl, -⟩
    · rw [rest] at onlyBefore
      exact onlyBefore (List.mem_cons_of_mem _ member)
    · rw [leads] at onlyAfter
      exact onlyAfter (List.mem_append_right _ List.mem_cons_self)

theorem closesNext_of_notMem (absent : opening ∉ slots) :
    ClosesNext opening closing side slots := by
  rintro before after rfl
  exact absurd (by simp) absent

theorem closesNext_cons {phase : Phase} (other : phase ≠ opening)
    (closes : ClosesNext opening closing side slots) :
    ClosesNext opening closing side (phase :: slots) := by
  intro before after split
  cases before with
  | nil =>
      cases split
      exact absurd rfl other
  | cons head before => exact closes before after (List.cons.inj split).2

theorem closesNext_append (absent : opening ∉ before)
    (closes : ClosesNext opening closing side slots) :
    ClosesNext opening closing side (before ++ slots) := by
  induction before with
  | nil => exact closes
  | cons phase before ih =>
      have other : phase ≠ opening := fun same => absent (same ▸ List.mem_cons_self)
      have later : opening ∉ before := fun member => absent (List.mem_cons_of_mem _ member)
      exact closesNext_cons other (ih later)

theorem closesNext_beat (other : closing ≠ opening) (sided : side closing = true)
    (closes : ClosesNext opening closing side slots) :
    ClosesNext opening closing side (opening :: closing :: slots) := by
  intro before after split
  cases before with
  | nil =>
      cases split
      simp [sided]
  | cons head before => exact closesNext_cons other closes before after (List.cons.inj split).2

theorem closesNext_beatsInRow (other : closing ≠ opening) (sided : side closing = true)
    (absent : opening ∉ slots) (count : Nat) :
    ClosesNext opening closing side (beatsInRow count [opening, closing] ++ slots) := by
  induction count with
  | zero => exact closesNext_of_notMem absent
  | succ count ih => exact closesNext_beat other sided ih

/-! Early signals in between change nothing about the order of the others. -/

theorem count_withoutEarly {slot : Phase} (heard : slot.isEarly = false) (slots : List Phase) :
    (withoutEarly slots).count slot = slots.count slot :=
  List.count_filter (by rw [heard]; rfl)

private theorem mem_withoutEarly {slot : Phase} (heard : slot.isEarly = false) :
    slot ∈ withoutEarly slots ↔ slot ∈ slots := by
  rw [withoutEarly, List.mem_filter, heard]
  simp

private theorem withoutEarly_split {slot : Phase} (heard : slot.isEarly = false) :
    withoutEarly (before ++ slot :: after) =
      withoutEarly before ++ slot :: withoutEarly after := by
  simp [withoutEarly, List.filter_append, heard]

private theorem Precedes.of_withoutEarly (firstHeard : first.isEarly = false)
    (secondHeard : second.isEarly = false) (ordered : Precedes first second (withoutEarly slots)) :
    Precedes first second slots := by
  rintro before after rfl member
  exact ordered _ _ (withoutEarly_split secondHeard) ((mem_withoutEarly firstHeard).mpr member)

private theorem ClosesNext.of_withoutEarly (heard : opening.isEarly = false)
    (loud : ∀ phase, side phase = true → phase.isEarly = false)
    (closes : ClosesNext opening closing side (withoutEarly slots)) :
    ClosesNext opening closing side slots := by
  rintro before after rfl
  have next := closes _ _ (withoutEarly_split heard)
  rw [withoutEarly, List.find?_filter] at next
  rw [← next]
  congr 1
  funext phase
  cases sided : side phase with
  | false => simp
  | true => simp [loud phase sided]

end

/-! ### The slots of a transaction -/

def requestSlots (early : Nat) : List Phase :=
  .requestPhaseBegin :: beatsInRow early [.beginPartialRequest, .endPartialRequest]

/-- What has fired when the response has begun and some beats of it are over. The end of the
request may have been left out. -/
def responseSlots (early : Nat) (ended : Bool) (answered : Nat) : List Phase :=
  (requestSlots early ++ .beginRequest :: if ended then [.endRequest] else []) ++
    .responsePhaseBegin :: beatsInRow answered [.beginPartialResponse, .endPartialResponse]

def lifeSlots (early : Nat) (ended : Bool) (answered : Nat) (acknowledged : Bool) : List Phase :=
  responseSlots early ended answered ++
    .beginResponse :: .endResponse :: if acknowledged then [.acknowledge] else []

/-- The slots, notifications apart, that a machine fired on its way to a state. -/
inductive State.HasFired : State → List Phase → Prop where
  | idle : HasFired .idle []
  | writeAnnounced : HasFired .writeAnnounced (requestSlots 0)
  | partialRequest (early : Nat) :
      HasFired .partialRequest (requestSlots early ++ [.beginPartialRequest])
  | writeIdle (early : Nat) : HasFired .writeIdle (requestSlots early)
  | request (early : Nat) : HasFired .request (requestSlots early ++ [.beginRequest])
  | waitForResponse (early : Nat) : HasFired .waitForResponse (responseSlots early true 0)
  | partialResponse (early : Nat) (ended : Bool) (answered : Nat) :
      HasFired .partialResponse (responseSlots early ended answered ++ [.beginPartialResponse])
  | readIdle (early : Nat) (ended : Bool) (answered : Nat) :
      HasFired .readIdle (responseSlots early ended answered)
  | response (early : Nat) (ended : Bool) (answered : Nat) :
      HasFired .response (responseSlots early ended answered ++ [.beginResponse])
  | waitAck (early : Nat) (ended : Bool) (answered : Nat) :
      HasFired .waitAck (responseSlots early ended answered ++ [.beginResponse, .endResponse])

private theorem beatsInRow_append_beat (count : Nat) (beat : List Phase) :
    beatsInRow count beat ++ beat = beatsInRow (count + 1) beat := by
  simp [beatsInRow, List.replicate_succ', List.flatten_append]

private theorem requestSlots_append_beat (early : Nat) :
    requestSlots early ++ [.beginPartialRequest, .endPartialRequest] =
      requestSlots (early + 1) := by
  simp only [requestSlots, List.cons_append, beatsInRow_append_beat]

private theorem responseSlots_append_beat (early : Nat) (ended : Bool) (answered : Nat) :
    responseSlots early ended answered ++ [.beginPartialResponse, .endPartialResponse] =
      responseSlots early ended (answered + 1) := by
  simp only [responseSlots, List.append_assoc, List.cons_append, beatsInRow_append_beat]

namespace State.HasFired

variable {state : State} {trigger : Phase} {move : Move} {slots : List Phase}

private theorem step (fired : state.HasFired slots) (step : state.step trigger = some move)
    (busy : move.next ≠ .idle) : move.next.HasFired (slots ++ withoutEarly move.fired) := by
  cases fired with
  | idle =>
      cases trigger <;> cases step
      · exact writeAnnounced
      · exact writeAnnounced
      · exact partialRequest 0
      · exact request 0
  | writeAnnounced =>
      cases trigger <;> cases step
      · exact partialRequest 0
      · exact request 0
  | partialRequest early =>
      cases trigger <;> cases step
      rw [List.append_assoc]
      exact requestSlots_append_beat early ▸ writeIdle (early + 1)
  | writeIdle early =>
      cases trigger <;> cases step
      · exact partialRequest early
      · exact request early
  | request early =>
      cases trigger <;> cases step
      · have ended := waitForResponse early
        simpa [responseSlots, beatsInRow, withoutEarly, Phase.isEarly] using ended
      · have answered := partialResponse early false 0
        simpa [responseSlots, beatsInRow, withoutEarly, Phase.isEarly] using answered
      · have answered := response early false 0
        simpa [responseSlots, beatsInRow, withoutEarly, Phase.isEarly] using answered
  | waitForResponse early =>
      cases trigger <;> cases step
      · exact partialResponse early true 0
      · exact response early true 0
  | partialResponse early ended answered =>
      cases trigger <;> cases step
      rw [List.append_assoc]
      exact responseSlots_append_beat early ended answered ▸ readIdle early ended (answered + 1)
  | readIdle early ended answered =>
      cases trigger <;> cases step
      · exact partialResponse early ended answered
      · exact response early ended answered
  | response early ended answered =>
      cases trigger <;> cases step
      · exact absurd rfl busy
      · rw [List.append_assoc]
        exact waitAck early ended answered
  | waitAck early ended answered =>
      cases trigger <;> cases step
      exact absurd rfl busy

private theorem finish (fired : state.HasFired slots) (step : state.step trigger = some move)
    (finishes : move.next = .idle) :
    ∃ early ended answered,
      slots ++ withoutEarly move.fired = lifeSlots early ended answered (state = .waitAck) := by
  cases fired with
  | response early ended answered =>
      refine ⟨early, ended, answered, ?_⟩
      cases trigger <;> cases step
      · simp [lifeSlots, withoutEarly, Phase.isEarly]
      · cases finishes
  | waitAck early ended answered =>
      refine ⟨early, ended, answered, ?_⟩
      cases trigger <;> cases step
      simp [lifeSlots, withoutEarly, Phase.isEarly]
  | idle | writeAnnounced | partialRequest | writeIdle | request | waitForResponse
  | partialResponse | readIdle => cases trigger <;> cases step <;> cases finishes

end State.HasFired

section

variable {early : Nat} {ended : Bool} {answered : Nat} {acknowledged : Bool}

theorem count_beatsInRow (slot : Phase) (count : Nat) (beat : List Phase) :
    (beatsInRow count beat).count slot = count * beat.count slot := by
  induction count with
  | zero => simp [beatsInRow]
  | succ count ih => rw [beatsInRow_succ, List.count_append, ih, Nat.succ_mul, Nat.add_comm]

theorem count_lifeSlots {slot : Phase} (member : slot ∈ [.requestPhaseBegin, .beginRequest,
    .responsePhaseBegin, .beginResponse, .endResponse]) :
    (lifeSlots early ended answered acknowledged).count slot = 1 := by
  simp only [List.mem_cons, List.not_mem_nil, or_false] at member
  rcases member with rfl | rfl | rfl | rfl | rfl <;> cases ended <;> cases acknowledged <;>
    simp [lifeSlots, responseSlots, requestSlots, count_beatsInRow]

theorem count_endRequest_lifeSlots :
    (lifeSlots early ended answered acknowledged).count .endRequest ≤ 1 := by
  cases ended <;> cases acknowledged <;>
    simp [lifeSlots, responseSlots, requestSlots, count_beatsInRow]

theorem count_acknowledge_lifeSlots :
    (lifeSlots early ended answered acknowledged).count .acknowledge = acknowledged.toNat := by
  cases ended <;> cases acknowledged <;>
    simp [lifeSlots, responseSlots, requestSlots, count_beatsInRow]

theorem precedes_responsePhaseBegin_lifeSlots {slot : Phase}
    (member : slot ∈ [.beginRequest, .endRequest]) :
    Precedes slot .responsePhaseBegin (lifeSlots early ended answered acknowledged) := by
  rw [lifeSlots, responseSlots, List.append_assoc]
  simp only [List.mem_cons, List.not_mem_nil, or_false] at member
  refine precedes_append ?_ ?_ <;> rw [← List.count_eq_zero]
  · rcases member with rfl | rfl <;> cases acknowledged <;> simp [count_beatsInRow]
  · cases ended <;> simp [requestSlots, count_beatsInRow]

theorem responsePhaseBegin_precedes_lifeSlots {slot : Phase}
    (member : slot ∈ [.beginPartialResponse, .beginResponse]) :
    Precedes .responsePhaseBegin slot (lifeSlots early ended answered acknowledged) := by
  rw [lifeSlots, responseSlots, List.append_cons _ Phase.responsePhaseBegin, List.append_assoc]
  simp only [List.mem_cons, List.not_mem_nil, or_false] at member
  refine precedes_append ?_ ?_ <;> rw [← List.count_eq_zero]
  · cases acknowledged <;> simp [count_beatsInRow]
  · rcases member with rfl | rfl <;> cases ended <;> simp [requestSlots, count_beatsInRow]

theorem beginResponse_precedes_lifeSlots :
    Precedes .beginResponse .endResponse (lifeSlots early ended answered acknowledged) := by
  rw [lifeSlots, List.append_cons]
  refine precedes_append ?_ ?_ <;> rw [← List.count_eq_zero]
  · cases acknowledged <;> simp
  · cases ended <;> simp [responseSlots, requestSlots, count_beatsInRow]

theorem closesNext_request_lifeSlots :
    ClosesNext .beginPartialRequest .endPartialRequest Phase.isRequest
      (lifeSlots early ended answered acknowledged) := by
  simp only [lifeSlots, responseSlots, requestSlots, List.append_assoc, List.cons_append]
  refine closesNext_cons (by decide) (closesNext_beatsInRow (by decide) rfl ?_ early)
  rw [← List.count_eq_zero]
  cases ended <;> cases acknowledged <;> simp [count_beatsInRow]

theorem closesNext_response_lifeSlots :
    ClosesNext .beginPartialResponse .endPartialResponse Phase.isResponse
      (lifeSlots early ended answered acknowledged) := by
  rw [lifeSlots, responseSlots, List.append_cons _ Phase.responsePhaseBegin, List.append_assoc]
  refine closesNext_append ?_ (closesNext_beatsInRow (by decide) rfl ?_ answered)
  · rw [← List.count_eq_zero]
    cases ended <;> simp [requestSlots, count_beatsInRow]
  · rw [← List.count_eq_zero]
    cases acknowledged <;> simp

end

/-! ### From the idle state to the end -/

private theorem slotsOf_append_firingsFor (fired : List Firing) (notice : Bool)
    (slots : List Phase) :
    slotsOf (fired ++ firingsFor notice slots) = slotsOf fired ++ slots := by
  simp [slotsOf, firingsFor, Function.comp_def]

private theorem OpensRequest.append {fired : List Firing} (opens : OpensRequest fired)
    (more : List Firing) : OpensRequest (fired ++ more) := by
  obtain ⟨before, after, rfl, notices⟩ := opens
  exact ⟨before, after ++ more, by rw [List.append_assoc]; rfl, notices⟩

private theorem State.fired_of_idle {trigger : Phase} {move : Move}
    (step : State.idle.step trigger = some move) :
    ∃ rest, move.fired = .requestPhaseBegin :: rest := by
  cases trigger <;> cases step <;> exact ⟨_, rfl⟩

/-- What has fired while a machine came to a state, some notifications among it. -/
structure Stage (state : State) (fired : List Firing) : Prop where
  slots : state.HasFired (withoutEarly (slotsOf fired))
  waits : state = .idle → ∀ firing ∈ fired, firing.notice = true ∧ firing.slot.isEarly = true
  opens : state ≠ .idle → OpensRequest fired

namespace Stage

variable {state : State} {fired : List Firing} {trigger : Phase} {move : Move}

theorem new : Stage .idle [] where
  slots := .idle
  waits := by
    intro _ firing member
    cases member
  opens := fun busy => absurd rfl busy

theorem notify (stage : Stage state fired) {event : Phase} (early : event.isEarly = true) :
    Stage state (fired ++ firingsFor true [event]) := by
  refine ⟨?_, ?_, fun busy => (stage.opens busy).append _⟩
  · have silent : withoutEarly (slotsOf fired ++ [event]) = withoutEarly (slotsOf fired) := by
      simp [withoutEarly, List.filter_append, early]
    rw [slotsOf_append_firingsFor, silent]
    exact stage.slots
  · intro idle firing member
    rcases List.mem_append.mp member with old | new
    · exact stage.waits idle firing old
    · rw [List.mem_singleton.mp new]
      exact ⟨rfl, early⟩

private theorem opens_move (stage : Stage state fired) (step : state.step trigger = some move) :
    OpensRequest (fired ++ firingsFor false move.fired) := by
  by_cases idle : state = .idle
  · subst idle
    obtain ⟨rest, first⟩ := State.fired_of_idle step
    exact ⟨fired, firingsFor false rest, by rw [first]; rfl, stage.waits rfl⟩
  · exact (stage.opens idle).append _

theorem advance (stage : Stage state fired) (step : state.step trigger = some move)
    (busy : move.next ≠ .idle) :
    Stage move.next (fired ++ firingsFor false move.fired) := by
  refine ⟨?_, fun idle => absurd idle busy, fun _ => stage.opens_move step⟩
  rw [slotsOf_append_firingsFor, withoutEarly, List.filter_append]
  exact stage.slots.step step busy

theorem disciplined (stage : Stage state fired) (step : state.step trigger = some move)
    (finishes : move.next = .idle) :
    Disciplined (fired ++ firingsFor false move.fired) (state = .waitAck) := by
  obtain ⟨early, ended, answered, life⟩ := stage.slots.finish step finishes
  have whole : withoutEarly (slotsOf (fired ++ firingsFor false move.fired)) =
      lifeSlots early ended answered (state = .waitAck) := by
    rw [slotsOf_append_firingsFor, ← life, withoutEarly, List.filter_append]
    rfl
  have counts : ∀ slot : Phase, slot.isEarly = false →
      (slotsOf (fired ++ firingsFor false move.fired)).count slot =
        (lifeSlots early ended answered (state = .waitAck)).count slot := by
    intro slot heard
    rw [← whole, count_withoutEarly heard]
  have ordered : ∀ {first second : Phase}, first.isEarly = false → second.isEarly = false →
      Precedes first second (lifeSlots early ended answered (state = .waitAck)) →
        Precedes first second (slotsOf (fired ++ firingsFor false move.fired)) := by
    intro first second firstHeard secondHeard inLife
    rw [← whole] at inLife
    exact inLife.of_withoutEarly firstHeard secondHeard
  refine ⟨stage.opens_move step, ?_, ?_, ⟨?_, ?_⟩, ⟨?_, ?_⟩, ?_, ?_, ?_, ?_, ?_⟩
  · intro slot member
    rw [counts slot (by revert member; cases slot <;> decide)]
    exact count_lifeSlots member
  · rw [counts .endRequest rfl]
    exact count_endRequest_lifeSlots
  · exact ordered rfl rfl (precedes_responsePhaseBegin_lifeSlots (by decide))
  · exact ordered rfl rfl (precedes_responsePhaseBegin_lifeSlots (by decide))
  · exact ordered rfl rfl (responsePhaseBegin_precedes_lifeSlots (by decide))
  · exact ordered rfl rfl (responsePhaseBegin_precedes_lifeSlots (by decide))
  · refine .of_withoutEarly rfl (fun phase => by cases phase <;> decide) ?_
    rw [whole]
    exact closesNext_request_lifeSlots
  · refine .of_withoutEarly rfl (fun phase => by cases phase <;> decide) ?_
    rw [whole]
    exact closesNext_response_lifeSlots
  · exact ordered rfl rfl beginResponse_precedes_lifeSlots
  · intro waited
    have last : move.fired = [.acknowledge] := by
      subst waited
      cases trigger <;> cases step
      rfl
    have once := counts .acknowledge rfl
    rw [count_acknowledge_lifeSlots, slotsOf_append_firingsFor, last, List.count_append] at once
    refine ⟨slotsOf fired, by rw [slotsOf_append_firingsFor, last], ?_⟩
    rw [← List.count_eq_zero]
    simpa [waited] using once
  · intro unwaited
    rw [← List.count_eq_zero, counts .acknowledge rfl, count_acknowledge_lifeSlots]
    simp [unwaited]

end Stage

end Handshake
