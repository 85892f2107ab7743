import Mathlib.Data.List.DropRight
import Handshake.Proofs.Checker.PhaseGraph
import Handshake.Proofs.Checker.Report
set_option autoImplicit false

/-! Matched phases. A phase is matched if it finds open on its side what it closes: an end its
own beginning, and a beginning nothing. A tracker is a function of the matched phases of its
command, in legal and illegal histories alike; in particular it counts the beats of every
transaction by the matched ends since the side was last completed. -/

namespace Handshake

def Side.lastEnd : Side → Phase
  | request => .endRequest
  | response => .endResponse

def Side.partialEnd : Side → Phase
  | request => .endPartialRequest
  | response => .endPartialResponse

/-- The beats counted on a side by the phases since it was last completed, if there is any. -/
def Side.beats? (side : Side) (phases : List Phase) : Option Nat :=
  if ∃ phase ∈ phases, phase.side? = some side then some (phases.count side.partialEnd) else none

namespace Side

variable {side : Side} {phase : Phase} {phases : List Phase}

theorem beats?_eq_none_iff :
    side.beats? phases = none ↔ ∀ phase ∈ phases, phase.side? ≠ some side := by
  unfold beats?
  split
  · rename_i present
    obtain ⟨phase, member, on⟩ := present
    simpa using ⟨phase, member, on⟩
  · rename_i absent
    simpa using absent

private theorem getD_beats? : (side.beats? phases).getD 0 = phases.count side.partialEnd := by
  unfold beats?
  split
  · rfl
  · rename_i absent
    refine (List.count_eq_zero.mpr (fun member => absent ⟨_, member, ?_⟩)).symm
    cases side <;> rfl

private theorem beats?_step :
    side.beats? (if phase = side.lastEnd then [] else phases ++ [phase]) =
      if phase.side? = some side then phase.countBeats (side.beats? phases)
      else side.beats? phases := by
  by_cases on : phase.side? = some side
  · rw [if_pos on]
    by_cases last : phase = side.lastEnd
    · rw [if_pos last, last]
      cases side <;> rfl
    · have counted : phase.countBeats (side.beats? phases) =
          some ((side.beats? phases).getD 0 + [phase].count side.partialEnd) := by
        cases side <;> cases phase <;> cases on <;>
          first
          | rfl
          | exact absurd rfl last
      rw [if_neg last, counted, getD_beats?, ← List.count_append]
      exact if_pos ⟨phase, by simp, on⟩
  · have notLast : phase ≠ side.lastEnd := by
      rintro rfl
      cases side <;> exact on rfl
    have uncounted : [phase].count side.partialEnd = 0 := by
      refine List.count_eq_zero.mpr (fun member => on ?_)
      rw [← List.mem_singleton.mp member]
      cases side <;> rfl
    rw [if_neg on, if_neg notLast]
    simp [beats?, on, uncounted]

end Side

namespace History

instance (before : History) (event : Observation) : Decidable (before.FindsOpen event) :=
  match on : event.phase.side? with
  | none => isTrue (fun side other => by rw [on] at other; cases other)
  | some side =>
      decidable_of_iff
        ((before.latest? event.record.command side).bind (fun seen => seen.phase.opens?) =
          event.phase.closes?)
        ⟨fun found other same => by
          cases on.symm.trans same
          exact found, fun finds => finds side on⟩

/-- The observations that found open on their side what they close. -/
def matched (history : History) : History :=
  (history.along (fun before event => if before.FindsOpen event then [event] else [])).flatten

/-- The matched phases of a transaction behind its latest matched `last`. -/
def since (history : History) (command : Command) (txn : TxnId) (last : Phase) : List Phase :=
  ((history.matched.onCommand command).phasesOf txn).rtakeWhile (fun phase => phase ≠ last)

theorem matched_append_singleton (history : History) (event : Observation) :
    (history ++ [event]).matched =
      history.matched ++ if history.FindsOpen event then [event] else [] := by
  rw [matched, along_append_singleton, List.flatten_append, List.flatten_singleton]
  rfl

theorem since_append_singleton (history : History) (event : Observation) (command : Command)
    (txn : TxnId) (last : Phase) :
    (history ++ [event]).since command txn last =
      if history.FindsOpen event ∧ event.record.command = command ∧ event.record.uid = txn then
        if event.phase = last then [] else history.since command txn last ++ [event.phase]
      else history.since command txn last := by
  unfold since
  rw [matched_append_singleton]
  by_cases finds : history.FindsOpen event
  · rw [if_pos finds, onCommand_append_singleton]
    by_cases on : event.record.command = command
    · rw [if_pos on, phasesOf_append_singleton]
      by_cases own : event.record.uid = txn
      · rw [if_pos own, if_pos (show history.FindsOpen event ∧ event.record.command = command ∧
          event.record.uid = txn from ⟨finds, on, own⟩), List.rtakeWhile_concat]
        by_cases ends : event.phase = last
        · simp [ends]
        · simp [ends]
      · rw [if_neg own, List.append_nil, if_neg (fun all => own all.2.2)]
    · rw [if_neg on, List.append_nil, if_neg (fun all => on all.2.1)]
  · rw [if_neg finds, List.append_nil, if_neg (fun all => finds all.1)]

theorem last_not_mem_since {history : History} {command : Command} {txn : TxnId} {last : Phase} :
    last ∉ history.since command txn last := by
  intro member
  unfold since at member
  have differs := List.mem_rtakeWhile_imp member
  simp at differs

end History

namespace Tracker

variable {tracker : Tracker} {txn : Transaction} {phase : Phase}

private theorem kind_of_mem_orderBreaches {breach : Breach}
    (member : breach ∈ tracker.orderBreaches txn) : breach.kind = .ordering := by
  unfold orderBreaches at member
  dsimp only at member
  repeat' split at member
  all_goals
    first
    | rw [List.mem_singleton.mp member]; rfl
    | cases member

theorem kind_of_mem_breaches_of_begin_request (inPlace : tracker.InPlace phase)
    (begins : phase = .beginPartialRequest ∨ phase = .beginRequest) {breach : Breach}
    (member : breach ∈ (tracker.observe txn phase).breaches) : breach.kind = .ordering := by
  rw [breaches_observe_of_begin_request_eq inPlace begins] at member
  split at member
  · cases member
  · obtain ⟨burst, -, rfl⟩ := List.mem_map.mp member
    rfl

theorem kind_of_mem_breaches_of_begin_response (inPlace : tracker.InPlace phase)
    (begins : phase = .beginPartialResponse ∨ phase = .beginResponse) {breach : Breach}
    (member : breach ∈ (tracker.observe txn phase).breaches) : breach.kind = .ordering := by
  rw [breaches_observe_of_begin_response_eq inPlace begins] at member
  split at member
  · cases member
  · exact kind_of_mem_orderBreaches member

theorem kind_of_mem_byteBreaches {breach : Breach} (member : breach ∈ byteBreaches txn) :
    breach.kind = .burstSize := by
  unfold byteBreaches at member
  repeat' split at member
  all_goals
    first
    | rw [List.mem_singleton.mp member]; rfl
    | cases member

private theorem exists_burstLength_iff_of_data (side : Side) (beats : Nat) (txn : Transaction) :
    (∃ breach ∈ beatBreaches side beats txn ++ byteBreaches txn, breach.kind = .burstLength) ↔
      beats ≠ txn.beats := by
  have bytes : ∀ breach ∈ byteBreaches txn, breach.kind ≠ .burstLength := by
    intro breach member
    rw [kind_of_mem_byteBreaches member]
    exact ViolationKind.noConfusion
  unfold beatBreaches
  split
  · rename_i right
    simpa [right] using bytes
  · rename_i wrong
    exact iff_of_true ⟨_, List.mem_cons_self, rfl⟩ wrong

private theorem exists_burstLength_iff_of_inPlace (inPlace : tracker.InPlace phase) :
    (∃ breach ∈ (tracker.observe txn phase).breaches, breach.kind = .burstLength) ↔
      (phase = .endRequest ∧ txn.isWrite = true ∧
          (tracker.requestBeats.get? txn.uid).getD 0 + 1 ≠ txn.beats) ∨
        (phase = .endResponse ∧ txn.isRead = true ∧
          (tracker.responseBeats.get? txn.uid).getD 0 + 1 ≠ txn.beats) := by
  cases phase with
  | endRequest =>
      rw [breaches_observe_endRequest_eq inPlace]
      cases write : txn.isWrite with
      | true => simpa using exists_burstLength_iff_of_data .request _ txn
      | false => simp
  | endResponse =>
      rw [breaches_observe_endResponse_eq inPlace]
      cases read : txn.isRead with
      | true => simpa using exists_burstLength_iff_of_data .response _ txn
      | false => simp
  | beginPartialRequest | beginRequest =>
      refine iff_of_false ?_ (by simp)
      rintro ⟨breach, member, kind⟩
      rw [kind_of_mem_breaches_of_begin_request inPlace (by simp) member] at kind
      cases kind
  | beginPartialResponse | beginResponse =>
      refine iff_of_false ?_ (by simp)
      rintro ⟨breach, member, kind⟩
      rw [kind_of_mem_breaches_of_begin_response inPlace (by simp) member] at kind
      cases kind
  | _ =>
      rw [breaches_observe_of_rest inPlace rfl Phase.noConfusion Phase.noConfusion]
      simp

end Tracker

namespace Checker

variable {config : CheckerConfig} {before : History} {event : Observation}

theorem findsOpen_iff_inPlace (config : CheckerConfig) (before : History) (event : Observation) :
    before.FindsOpen event ↔
      (trackerOf config before event.record.command).InPlace event.phase := by
  simp only [History.FindsOpen, Tracker.InPlace, trackerOf, phaseOn_observeAll]

/-- An observation that is not matched is an illegal transition, and nothing but the open phase
of its side follows it. -/
theorem ruling_of_not_findsOpen (config : CheckerConfig) (unmatched : ¬ before.FindsOpen event) :
    ∃ requestPhase responsePhase breach,
      ruling config before event =
          ⟨{ trackerOf config before event.record.command with requestPhase, responsePhase },
            [breach], none⟩ ∧
        breach.kind = .illegalTransition :=
  Tracker.observe_of_not_inPlace
    (fun inPlace => unmatched ((findsOpen_iff_inPlace config before event).mpr inPlace))

theorem get?_beatsOn_trackerOf (config : CheckerConfig) (history : History) (command : Command)
    (side : Side) (txn : TxnId) :
    ((trackerOf config history command).beatsOn side).get? txn =
      side.beats? (history.since command txn side.lastEnd) := by
  induction history using List.reverseRecOn with
  | nil =>
      rw [trackerOf_nil]
      cases side <;> rfl
  | append_singleton before event ih =>
      rw [trackerOf_append_singleton, History.since_append_singleton]
      by_cases on : event.record.command = command
      · subst on
        rw [if_pos rfl]
        by_cases finds : History.FindsOpen before event
        · -- a matched phase counts for its own transaction, on its own side only
          have inPlace := (findsOpen_iff_inPlace config before event).mp finds
          by_cases own : event.record.uid = txn
          · subst own
            rw [if_pos ⟨finds, rfl, rfl⟩, Side.beats?_step, ← ih]
            split
            · rename_i onSide
              exact Tracker.get?_beatsOn_observe_self inPlace onSide
            · rename_i off
              rw [ruling, Tracker.beatsOn_observe_of_side?_ne _ _ off]
          · rw [if_neg (fun all => own all.2.2), ← ih]
            exact Tracker.get?_beatsOn_observe_of_ne _ _ _ _ (Ne.symm own)
        · obtain ⟨_, _, breach, same, -⟩ := ruling_of_not_findsOpen config finds
          rw [same, if_neg (fun all => finds all.1), ← ih]
          cases side <;> rfl
      · rw [if_neg on, ih, if_neg (fun all => on all.2.1)]

/-! ### Wrong beat counts -/

/-- The beats of a transaction are wrong exactly if a matched last end of its data comes with
another number of matched ends since the one before it than its length asks for. -/
theorem exists_burstLength_iff (config : CheckerConfig) (before : History) (event : Observation) :
    (∃ violation ∈ found config before event, violation.kind = .burstLength) ↔
      before.FindsOpen event ∧
        ((event.phase = .endRequest ∧ event.record.isWrite = true ∧
            1 + (before.since event.record.command event.record.uid .endRequest).count
                .endPartialRequest ≠ event.record.length + 1) ∨
          (event.phase = .endResponse ∧ event.record.isRead = true ∧
            1 + (before.since event.record.command event.record.uid .endResponse).count
                .endPartialResponse ≠ event.record.length + 1)) := by
  rw [exists_mem_found_iff rfl]
  by_cases finds : before.FindsOpen event
  · have requests : (trackerOf config before event.record.command).requestBeats.get?
        event.record.uid = Side.request.beats? _ :=
      get?_beatsOn_trackerOf config before event.record.command .request event.record.uid
    have responses : (trackerOf config before event.record.command).responseBeats.get?
        event.record.uid = Side.response.beats? _ :=
      get?_beatsOn_trackerOf config before event.record.command .response event.record.uid
    rw [ruling, Tracker.exists_burstLength_iff_of_inPlace
      ((findsOpen_iff_inPlace config _ _).mp finds), and_iff_right finds, requests, responses,
      Side.getD_beats?, Side.getD_beats?, Nat.add_comm 1, Nat.add_comm 1]
    rfl
  · obtain ⟨_, _, breach, same, kind⟩ := ruling_of_not_findsOpen config finds
    rw [same]
    simp [finds, kind]

end Checker

end Handshake
