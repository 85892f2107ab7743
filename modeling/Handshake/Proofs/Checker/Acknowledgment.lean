import Handshake.Proofs.Checker.Matched
set_option autoImplicit false

/-! Owed acknowledgments. On a coherent interface a transaction owes an acknowledgment from each
matched end of its response up to its next acknowledgment, behind legal and illegal histories
alike, and an acknowledgment is reported exactly if none is owed. Elsewhere none is ever owed. -/

namespace Handshake

namespace History

/-- An event is the end of a response and closes the beginning of one that is open on its
command. -/
def CompletesResponse (before : History) (event : Observation) : Prop :=
  event.phase = .endResponse ∧ before.FindsOpen event

/-- A transaction completed a response, not as a snoop alone, and has not acknowledged since. -/
def OwesAck (history : History) (txn : TxnId) : Prop :=
  ∃ (before : History) (event : Observation) (after : History),
    history = before ++ event :: after ∧ before.CompletesResponse event ∧
      event.record.uid = txn ∧ event.record.snoopOnly = false ∧
        .acknowledge ∉ after.phasesOf txn

private theorem not_owesAck_nil (txn : TxnId) : ¬ OwesAck [] txn := by
  rintro ⟨before, event, after, split, -⟩
  exact List.append_ne_nil_of_right_ne_nil before (List.cons_ne_nil event after) split.symm

private theorem owesAck_append_singleton (history : History) (event : Observation) (txn : TxnId) :
    (history ++ [event]).OwesAck txn ↔
      ¬ (event.record.uid = txn ∧ event.phase = .acknowledge) ∧
        (history.OwesAck txn ∨
          history.CompletesResponse event ∧ event.record.uid = txn ∧
            event.record.snoopOnly = false) := by
  constructor
  · rintro ⟨before, ended, after, split, completes, own, full, unmade⟩
    rcases List.eq_nil_or_concat after with rfl | ⟨middle, final, rfl⟩
    · -- the last event is the end of the response itself
      obtain ⟨rfl, same⟩ := List.append_inj' split rfl
      cases same
      refine ⟨fun acknowledges => ?_, .inr ⟨completes, own, full⟩⟩
      cases completes.1.symm.trans acknowledges.2
    · rw [List.concat_eq_append, ← List.cons_append, ← List.append_assoc] at split
      obtain ⟨rfl, same⟩ := List.append_inj' split rfl
      cases same
      rw [List.concat_eq_append, phasesOf_append_singleton, List.mem_append, not_or] at unmade
      refine ⟨fun acknowledges => unmade.2 ?_, .inl ⟨before, ended, middle, rfl, completes, own,
        full, unmade.1⟩⟩
      rw [if_pos acknowledges.1, acknowledges.2]
      exact List.mem_singleton_self _
  · rintro ⟨silent, ⟨before, ended, after, rfl, completes, own, full, unmade⟩ | completed⟩
    · refine ⟨before, ended, after ++ [event], by simp, completes, own, full, fun member => ?_⟩
      rw [phasesOf_append_singleton, List.mem_append] at member
      rcases member with earlier | last
      · exact unmade earlier
      · split at last
        · rename_i same
          exact silent ⟨same, (List.mem_singleton.mp last).symm⟩
        · cases last
    · exact ⟨history, event, [], rfl, completed.1, completed.2.1, completed.2.2,
        List.not_mem_nil⟩

end History

namespace Checker

variable {config : CheckerConfig} {history before : History} {event : Observation}

private theorem findsOpen_endResponse_iff (config : CheckerConfig)
    (ends : event.phase = .endResponse) :
    before.FindsOpen event ↔
      (trackerOf config before event.record.command).responsePhase = some .beginResponse := by
  rw [findsOpen_iff_inPlace config, ends]
  constructor
  · intro inPlace
    exact inPlace .response rfl
  · rintro opened side ⟨⟩
    exact opened

private theorem completesResponse_iff_milestone (config : CheckerConfig) :
    before.CompletesResponse event ↔
      (ruling config before event).milestone = some .responseCompleted := by
  by_cases finds : before.FindsOpen event
  · rw [ruling, Tracker.milestone_observe_responseCompleted
      ((findsOpen_iff_inPlace config before event).mp finds)]
    exact and_iff_left finds
  · obtain ⟨_, _, _, same, -⟩ := ruling_of_not_findsOpen config finds
    rw [same]
    exact iff_of_false (fun completes => finds completes.2) (by simp)

private theorem mem_awaiting_observeAll (coherent : config.ace = true) (history : History)
    (txn : TxnId) :
    txn ∈ ((new config).observeAll history).awaiting ↔ history.OwesAck txn := by
  induction history using List.reverseRecOn with
  | nil => exact iff_of_false List.not_mem_nil (History.not_owesAck_nil txn)
  | append_singleton before event ih =>
      have ace : ((new config).observeAll before).config.ace = true := by
        rw [config_observeAll]
        exact coherent
      rw [observeAll_append_singleton,
        mem_awaiting_observe (nodup_awaiting_observeAll config before),
        History.owesAck_append_singleton, ih, completesResponse_iff_milestone config, ace]
      simp only [true_and]
      constructor
      · rintro ⟨silent, owed | ⟨own, completes, full⟩⟩
        · exact ⟨silent, .inl owed⟩
        · exact ⟨silent, .inr ⟨completes, own, full⟩⟩
      · rintro ⟨silent, owed | ⟨completes, own, full⟩⟩
        · exact ⟨silent, .inl owed⟩
        · exact ⟨silent, .inr ⟨own, completes, full⟩⟩

private theorem awaiting_observeAll_eq_nil (separate : config.ace = false) (history : History) :
    ((new config).observeAll history).awaiting = [] := by
  induction history using List.reverseRecOn with
  | nil => rfl
  | append_singleton before event ih =>
      have noAce : ((new config).observeAll before).config.ace = false := by
        rw [config_observeAll]
        exact separate
      rw [observeAll_append_singleton]
      exact (if_pos (by simp [noAce])).trans ih

private theorem awaitsAck_iff (coherent : config.ace = true) (history : History) (txn : TxnId) :
    ((new config).observeAll history).awaitsAck txn = true ↔ history.OwesAck txn := by
  rw [awaitsAck, List.contains_iff_mem]
  exact mem_awaiting_observeAll coherent history txn

private theorem breaches_acknowledge (checker : Checker) (txn : Transaction) :
    checker.breaches .acknowledge txn =
      if checker.config.ace = false then [.acknowledgeNotCoherent]
      else if checker.awaitsAck txn.uid = true then []
      else [.acknowledgeNotOwed] := by
  have bare : checker.breaches .acknowledge txn = checker.bareBreaches txn .acknowledge := by
    simp [breaches, commandBreaches, attributeBreaches, Tracker.observe]
  have owed : checker.awaitsAck txn.uid = true ↔ txn.uid ∈ checker.awaiting :=
    List.contains_iff_mem
  rw [bare, bareBreaches, if_neg (by decide), if_pos rfl]
  cases checker.config.ace <;> simp only [owed, Bool.false_eq_true, not_false_eq_true,
    not_true_eq_false, Bool.true_eq_false, if_true, if_false]

/-- On a coherent interface an acknowledgment is owed exactly from a completed response of a
transaction that is not only snooped up to its next acknowledgment, and one that is not owed is
reported, once. Elsewhere none is owed and each is reported, once. -/
theorem awaitsAck_iff_and_found_acknowledge (config : CheckerConfig) (history : History) :
    (∀ (before : History) (event : Observation),
      before.CompletesResponse event ↔ event.phase = .endResponse ∧
        (trackerOf config before event.record.command).responsePhase = some .beginResponse) ∧
      (config.ace = true →
        (∀ txn, ((new config).observeAll history).awaitsAck txn = true ↔ history.OwesAck txn) ∧
          ∀ record, (found config history ⟨.acknowledge, record⟩).map Violation.kind =
            if ((new config).observeAll history).awaitsAck record.uid = true then []
            else [.illegalTransition]) ∧
      (config.ace = false →
        (∀ txn, ((new config).observeAll history).awaitsAck txn = false) ∧
          ∀ record, (found config history ⟨.acknowledge, record⟩).map Violation.kind =
            [.illegalPhase]) := by
  have sameAce : ((new config).observeAll history).config.ace = config.ace :=
    congrArg CheckerConfig.ace (config_observeAll (new config) history)
  refine ⟨fun before event => ?_, fun coherent => ⟨?_, fun record => ?_⟩,
    fun separate => ⟨fun txn => ?_, fun record => ?_⟩⟩
  · exact and_congr_right (fun ends => findsOpen_endResponse_iff config ends)
  · exact awaitsAck_iff coherent history
  · rw [found, breaches_acknowledge, sameAce, coherent, if_neg Bool.noConfusion]
    split <;> rfl
  · rw [awaitsAck, awaiting_observeAll_eq_nil separate]
    rfl
  · rw [found, breaches_acknowledge, sameAce, if_pos separate]
    rfl

theorem awaitsAck_of_foreign_end :
    History.OwesAck [⟨.beginResponse, .plain ⟨0⟩ .read⟩, ⟨.endResponse, .plain ⟨1⟩ .read⟩] ⟨1⟩ ∧
      (found { ace := true }
        [⟨.beginResponse, .plain ⟨0⟩ .read⟩, ⟨.endResponse, .plain ⟨1⟩ .read⟩]
        ⟨.acknowledge, .plain ⟨0⟩ .read⟩).map Violation.kind = [.illegalTransition] := by
  obtain ⟨owed, reported⟩ := (awaitsAck_iff_and_found_acknowledge { ace := true }
    [⟨.beginResponse, .plain ⟨0⟩ .read⟩, ⟨.endResponse, .plain ⟨1⟩ .read⟩]).2.1 rfl
  exact ⟨(owed ⟨1⟩).mp (by decide), (reported _).trans (by decide)⟩

end Checker

end Handshake
