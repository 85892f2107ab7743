import Handshake.Proofs.Checker.Bursts
import Handshake.Proofs.Replay.Calm
set_option autoImplicit false

/-! Where a transaction stands in a replay. It is not declared yet, or it is active and
its phases so far are a path of the graph, or its response has ended and it owes an
acknowledgment, or it is complete. Only in the last case there is a completion of it, and
just one. -/

namespace Handshake

/-- The phases that a clean trace can show. -/
def Phase.isLoud (phase : Phase) : Bool := phase.isHandshake || phase = .acknowledge

/-! ### Single steps -/

namespace State

variable {state : State} {trigger : Phase} {move : Move}

theorem next_eq_idle_iff (step : state.step trigger = some move) :
    move.next = .idle ↔ Replay.completes trigger = true := by
  cases state <;> cases trigger <;> cases step <;> simp [Replay.completes]

private theorem eq_waitAck_of_acknowledge (step : state.step .acknowledge = some move) :
    state = .waitAck := by
  cases state <;> cases step
  rfl

private theorem eq_acknowledge_of_waitAck (step : waitAck.step trigger = some move) :
    trigger = .acknowledge := by
  cases trigger <;> cases step
  rfl

private theorem step_endResponse_of_postponed (step : state.step .endResponseNoAck = some move) :
    move.next = .waitAck ∧ ∃ move, state.step .endResponse = some move := by
  cases state <;> cases step
  exact ⟨rfl, _, rfl⟩

private theorem eq_endResponse_of_completes {phase : Phase} (handshake : phase.isHandshake = true)
    (ends : Replay.completes phase = true) : phase = .endResponse := by
  cases phase with
  | endResponse => rfl
  | acknowledge => cases handshake
  | _ => cases ends

end State

namespace Replay

def partialBeats (phases : List Phase) : Nat :=
  phases.count .endPartialRequest + phases.count .endPartialResponse

private theorem partialBeats_append_singleton (phases : List Phase) (phase : Phase) :
    partialBeats (phases ++ [phase]) = partialBeats phases + beatsEnded phase := by
  simp only [partialBeats, beatsEnded, List.count_append]
  omega

/-- Where a transaction of the given phases stands: what the dispatcher knows of its
progress, and the beats that the completions tell of it. -/
inductive Standing (phases : List Phase) : Option (State × Nat) → List Nat → Prop where
  | undeclared (unmentioned : phases = []) : Standing phases none []
  | running {state : State}
      (path : State.walk .idle (phases.filter Phase.isHandshake) = some state)
      (alive : .endResponse ∉ phases) :
      Standing phases (some (state, partialBeats phases)) []
  | owing (answered : .endResponse ∈ phases) :
      Standing phases (some (.waitAck, partialBeats phases)) []
  | complete (answered : .endResponse ∈ phases) : Standing phases none [partialBeats phases + 1]

variable {phases : List Phase} {state : State} {phase trigger : Phase} {move : Move}

private theorem advance_of_handshake
    (path : State.walk .idle (phases.filter Phase.isHandshake) = some state)
    (alive : .endResponse ∉ phases) (handshake : phase.isHandshake = true)
    (step : state.step phase = some move) :
    Standing (phases ++ [phase])
      (if move.next = .idle then none
        else some (move.next, partialBeats phases + beatsEnded phase))
      (if completes phase then [partialBeats phases + 1] else []) := by
  have counted := partialBeats_append_singleton phases phase
  cases ends : completes phase with
  | true =>
      obtain rfl := State.eq_endResponse_of_completes handshake ends
      have same : partialBeats (phases ++ [.endResponse]) = partialBeats phases := counted
      rw [if_pos ((State.next_eq_idle_iff step).mpr ends), if_pos rfl, ← same]
      exact .complete List.mem_concat_self
  | false =>
      have busy : move.next ≠ .idle := by
        intro idle
        rw [(State.next_eq_idle_iff step).mp idle] at ends
        cases ends
      have early : phase ≠ .endResponse := by
        rintro rfl
        cases ends
      rw [if_neg busy, if_neg Bool.false_ne_true, ← counted]
      refine .running ?_ ?_
      · rw [List.filter_append, List.filter_cons_of_pos handshake, List.filter_nil,
          State.walk_append_singleton, path, Option.bind_some, step]
        rfl
      · simp [alive, Ne.symm early]

private theorem advance_of_postponed (step : state.step .endResponseNoAck = some move) :
    Standing (phases ++ [.endResponse])
      (if move.next = .idle then none
        else some (move.next, partialBeats phases + beatsEnded .endResponseNoAck)) [] := by
  have same : partialBeats (phases ++ [.endResponse]) = partialBeats phases :=
    partialBeats_append_singleton phases .endResponse
  rw [(State.step_endResponse_of_postponed step).1, ← same]
  exact .owing List.mem_concat_self

private theorem advance_of_acknowledge (answered : .endResponse ∈ phases)
    (step : state.step .acknowledge = some move) :
    Standing (phases ++ [.acknowledge])
      (if move.next = .idle then none
        else some (move.next, partialBeats phases + beatsEnded .acknowledge))
      [partialBeats phases + 1] := by
  have same : partialBeats (phases ++ [.acknowledge]) = partialBeats phases :=
    partialBeats_append_singleton phases .acknowledge
  rw [if_pos ((State.next_eq_idle_iff step).mpr rfl), ← same]
  exact .complete (List.mem_append_left _ answered)

theorem Standing.advance {beats : Nat} {told : List Nat}
    (standing : Standing phases (some (state, beats)) told)
    (plain : ∀ reached, State.walk .idle (phases.filter Phase.isHandshake) = some reached →
      reached.isPlain = true)
    (loud : phase.isLoud = true)
    (given : trigger = phase ∨ (phase = .endResponse ∧ trigger = .endResponseNoAck))
    (step : state.step trigger = some move) :
    Standing (phases ++ [phase])
        (if move.next = .idle then none else some (move.next, beats + beatsEnded trigger))
        (told ++ if completes trigger then [beats + 1] else []) ∧
      (phase.isHandshake = true → .endResponse ∉ phases ∧
        State.walk .idle (phases.filter Phase.isHandshake) = some state ∧
          ∃ move, state.step phase = some move) := by
  cases standing with
  | running path alive =>
      rcases given with rfl | ⟨rfl, rfl⟩
      · cases handshake : trigger.isHandshake with
        | true => exact ⟨advance_of_handshake path alive handshake step, fun _ =>
            ⟨alive, path, move, step⟩⟩
        | false =>
            -- only a transaction that owes an acknowledgment could take this one
            have acknowledges : trigger = .acknowledge := by
              simpa [Phase.isLoud, handshake] using loud
            rw [acknowledges] at step
            rw [State.eq_waitAck_of_acknowledge step] at path
            cases plain _ path
      · exact ⟨advance_of_postponed step, fun _ =>
          ⟨alive, path, (State.step_endResponse_of_postponed step).2⟩⟩
  | owing answered =>
      obtain rfl := State.eq_acknowledge_of_waitAck step
      rcases given with rfl | ⟨-, same⟩
      · exact ⟨advance_of_acknowledge answered step, fun handshake => by cases handshake⟩
      · cases same

end Replay

end Handshake
