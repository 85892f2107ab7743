import Mathlib.Data.List.Nodup
import Handshake.Proofs.Checker.History
set_option autoImplicit false

/-! The report of an observation: the violations that it adds to those of the history before
it. Order and beats are judged by the tracker of the command alone, so the other rules have no
part in a report of these kinds. -/

namespace Handshake

/-- The kinds of violation that only a tracker finds: broken order and wrong beats. -/
def ViolationKind.isTracked : ViolationKind → Bool
  | .ordering | .burstLength => true
  | _ => false

namespace Checker

/-- The tracker of a command behind a history. -/
def trackerOf (config : CheckerConfig) (history : History) (command : Command) : Tracker :=
  ((new config).observeAll history).trackers.get command

/-- What that tracker makes of the next observation of its command. -/
def ruling (config : CheckerConfig) (before : History) (event : Observation) : Ruling :=
  (trackerOf config before event.record.command).observe event.record event.phase

/-- The violations that a new checker adds at an observation behind a history. -/
def found (config : CheckerConfig) (before : History) (event : Observation) : List Violation :=
  (((new config).observeAll before).breaches event.phase event.record).map
    (Violation.ofBreach event.record)

def foundOfKind (kind : ViolationKind) (config : CheckerConfig) (before : History)
    (event : Observation) : List Violation :=
  (found config before event).filter (fun violation => violation.kind = kind)

def reports (config : CheckerConfig) (history : History) : List (List Violation) :=
  history.along (found config)

variable {config : CheckerConfig} {history before : History} {event : Observation}

theorem trackerOf_nil (config : CheckerConfig) (command : Command) :
    trackerOf config [] command = .empty := by
  cases command <;> rfl

theorem trackerOf_append_singleton (config : CheckerConfig) (before : History)
    (event : Observation) (command : Command) :
    trackerOf config (before ++ [event]) command =
      if event.record.command = command then (ruling config before event).tracker
      else trackerOf config before command := by
  unfold trackerOf
  rw [observeAll_append_singleton]
  by_cases on : event.record.command = command
  · subst on
    rw [if_pos rfl]
    exact Trackers.get_set_self _ _ _
  · rw [if_neg on]
    exact Trackers.get_set_of_ne _ _ (Ne.symm on)

theorem violations_append_singleton (config : CheckerConfig) (before : History)
    (event : Observation) :
    ((new config).observeAll (before ++ [event])).violations =
      ((new config).observeAll before).violations ++ found config before event := by
  rw [observeAll_append_singleton]
  rfl

theorem reports_append_singleton (config : CheckerConfig) (before : History)
    (event : Observation) :
    reports config (before ++ [event]) = reports config before ++ [found config before event] :=
  History.along_append_singleton _ _ _

theorem violations_eq_flatten_reports (config : CheckerConfig) (history : History) :
    ((new config).observeAll history).violations = (reports config history).flatten := by
  induction history using List.reverseRecOn with
  | nil => rfl
  | append_singleton before event ih =>
      rw [violations_append_singleton, reports_append_singleton, List.flatten_append, ih,
        List.flatten_singleton]

theorem txn_of_mem_found {violation : Violation} (member : violation ∈ found config before event) :
    violation.txn = event.record.uid := by
  obtain ⟨breach, -, rfl⟩ := List.mem_map.mp member
  rfl

theorem exists_found_of_mem_violations {violation : Violation}
    (member : violation ∈ ((new config).observeAll history).violations) :
    ∃ before seen after, history = before ++ seen :: after ∧
      violation ∈ found config before seen := by
  induction history using List.reverseRecOn with
  | nil => cases member
  | append_singleton before event ih =>
      rw [violations_append_singleton] at member
      rcases List.mem_append.mp member with earlier | now
      · obtain ⟨first, seen, rest, rfl, reported⟩ := ih earlier
        exact ⟨first, seen, rest ++ [event], List.append_assoc _ _ _, reported⟩
      · exact ⟨before, event, [], rfl, now⟩

theorem exists_of_mem_violations {violation : Violation}
    (member : violation ∈ ((new config).observeAll history).violations) :
    ∃ seen ∈ history, seen.record.uid = violation.txn := by
  obtain ⟨before, seen, after, rfl, reported⟩ := exists_found_of_mem_violations member
  exact ⟨seen, by simp, (txn_of_mem_found reported).symm⟩

/-! ### Order and beats -/

private theorem isTracked_commandBreaches (txn : Transaction) (phase : Phase) :
    ∀ breach ∈ commandBreaches txn phase, breach.kind.isTracked = false := by
  unfold commandBreaches
  split
  · exact List.forall_mem_singleton.mpr rfl
  · exact List.forall_mem_nil _

private theorem isTracked_attributeBreaches (checker : Checker) (txn : Transaction)
    (milestone : Option Milestone) :
    ∀ breach ∈ checker.attributeBreaches txn milestone, breach.kind.isTracked = false := by
  unfold attributeBreaches
  split
  · intro breach member
    obtain ⟨fault, -, rfl⟩ := List.mem_map.mp member
    cases fault <;> rfl
  · exact List.forall_mem_nil _

private theorem isTracked_bareBreaches (checker : Checker) (txn : Transaction) (phase : Phase) :
    ∀ breach ∈ checker.bareBreaches txn phase, breach.kind.isTracked = false := by
  unfold bareBreaches
  repeat' split
  all_goals first
    | exact List.forall_mem_nil _
    | exact List.forall_mem_singleton.mpr rfl

theorem foundOfKind_eq {kind : ViolationKind} (tracked : kind.isTracked = true)
    (config : CheckerConfig) (before : History) (event : Observation) :
    foundOfKind kind config before event =
      ((ruling config before event).breaches.filter (fun breach => breach.kind = kind)).map
        (Violation.ofBreach event.record) := by
  have none : ∀ breaches : List Breach, (∀ breach ∈ breaches, breach.kind.isTracked = false) →
      breaches.filter (fun breach => breach.kind = kind) = [] := by
    intro breaches untracked
    refine List.filter_eq_nil_iff.mpr (fun breach member same => ?_)
    have untrackedKind := untracked breach member
    rw [of_decide_eq_true same, tracked] at untrackedKind
    cases untrackedKind
  rw [foundOfKind, found, List.filter_map]
  change ((breaches _ _ _).filter (fun breach => breach.kind = kind)).map _ = _
  rw [breaches, List.filter_append, List.filter_append, List.filter_append,
    none _ (isTracked_commandBreaches _ _), none _ (isTracked_attributeBreaches _ _ _),
    none _ (isTracked_bareBreaches _ _ _), List.nil_append, List.append_nil, List.append_nil]
  rfl

theorem exists_mem_found_iff {kind : ViolationKind} (tracked : kind.isTracked = true)
    (config : CheckerConfig) (before : History) (event : Observation) :
    (∃ violation ∈ found config before event, violation.kind = kind) ↔
      ∃ breach ∈ (ruling config before event).breaches, breach.kind = kind := by
  have same := foundOfKind_eq tracked config before event
  constructor
  · rintro ⟨violation, member, own⟩
    have chosen : violation ∈ foundOfKind kind config before event :=
      List.mem_filter.mpr ⟨member, decide_eq_true own⟩
    rw [same] at chosen
    obtain ⟨breach, inside, rfl⟩ := List.mem_map.mp chosen
    exact ⟨breach, (List.mem_filter.mp inside).1, own⟩
  · rintro ⟨breach, member, own⟩
    have chosen :
        Violation.ofBreach event.record breach ∈ foundOfKind kind config before event := by
      rw [same]
      exact List.mem_map_of_mem (List.mem_filter.mpr ⟨member, decide_eq_true own⟩)
    exact ⟨_, (List.mem_filter.mp chosen).1, own⟩

/-! ### Owed acknowledgments -/

private theorem nodup_awaiting_observe {checker : Checker} (distinct : checker.awaiting.Nodup)
    (phase : Phase) (txn : Transaction) : (checker.observe phase txn).awaiting.Nodup := by
  unfold observe awaitingAfter
  dsimp only
  split
  · exact distinct
  · split
    · exact distinct.erase _
    · split
      · exact distinct.insert
      · exact distinct

theorem nodup_awaiting_observeAll (config : CheckerConfig) (history : History) :
    ((new config).observeAll history).awaiting.Nodup := by
  induction history using List.reverseRecOn with
  | nil => exact List.nodup_nil
  | append_singleton before event ih =>
      rw [observeAll_append_singleton]
      exact nodup_awaiting_observe ih _ _

theorem mem_awaiting_observe {checker : Checker} (distinct : checker.awaiting.Nodup)
    (event : Observation) (txn : TxnId) :
    txn ∈ (checker.observe event.phase event.record).awaiting ↔
      ¬ (checker.config.ace = true ∧ event.record.uid = txn ∧ event.phase = .acknowledge) ∧
        (txn ∈ checker.awaiting ∨
          checker.config.ace = true ∧ event.record.uid = txn ∧
            ((checker.trackers.get event.record.command).observe event.record
              event.phase).milestone = some .responseCompleted ∧
                event.record.snoopOnly = false) := by
  unfold observe awaitingAfter
  dsimp only
  cases ace : checker.config.ace with
  | false => simp
  | true =>
      rw [if_neg (by simp)]
      by_cases acknowledges : event.phase = .acknowledge
      · rw [if_pos acknowledges, distinct.mem_erase_iff, acknowledges]
        constructor
        · rintro ⟨different, owed⟩
          exact ⟨fun own => different own.2.1.symm, .inl owed⟩
        · rintro ⟨foreign, owed | completed⟩
          · exact ⟨fun same => foreign ⟨rfl, same.symm, rfl⟩, owed⟩
          · cases completed.2.2.1
      · rw [if_neg acknowledges]
        split
        · rename_i completes
          rw [List.mem_insert_iff]
          constructor
          · rintro (rfl | owed)
            · exact ⟨fun own => acknowledges own.2.2, .inr ⟨rfl, rfl, completes.1,
                by simpa using completes.2⟩⟩
            · exact ⟨fun own => acknowledges own.2.2, .inl owed⟩
          · rintro ⟨-, owed | completed⟩
            · exact .inr owed
            · exact .inl completed.2.1.symm
        · rename_i incomplete
          constructor
          · exact fun owed => ⟨fun own => acknowledges own.2.2, .inl owed⟩
          · rintro ⟨-, owed | completed⟩
            · exact owed
            · exact absurd ⟨completed.2.2.1, by simp [completed.2.2.2]⟩ incomplete

end Checker

end Handshake
