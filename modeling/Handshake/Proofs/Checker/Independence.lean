import Mathlib.Data.Finset.Basic
import Handshake.Proofs.Checker.Account
import Handshake.Proofs.Checker.Report
set_option autoImplicit false

/-! Commands are checked apart. The owed acknowledgments and the violations are shared by all
commands, but as long as no uid is used with two of them, the observations on one command are
judged as if there were no others. Phases that are not part of the handshake are each reported
by themselves and change nothing else. -/

namespace Handshake

/-- The time points and signals inside a dispatcher, which are no phases of the handshake. -/
def Phase.isInternal : Phase → Bool
  | requestPhaseBegin | writeValid | writeReady | responsePhaseBegin | endResponseNoAck => true
  | beginPartialRequest | endPartialRequest | beginRequest | endRequest | beginPartialResponse
  | endPartialResponse | beginResponse | endResponse | acknowledge => false

/-- The items of a list without those at some positions. -/
def omitting {α : Type} (positions : Finset Nat) (items : List α) : List α :=
  (items.zipIdx.filter (fun item => item.2 ∉ positions)).map Prod.fst

private theorem omitting_append_singleton {α : Type} (positions : Finset Nat) (items : List α)
    (item : α) :
    omitting positions (items ++ [item]) =
      omitting positions items ++ if items.length ∈ positions then [] else [item] := by
  unfold omitting
  rw [List.zipIdx_append, List.filter_append, List.map_append, List.zipIdx_singleton,
    Nat.zero_add]
  by_cases omitted : items.length ∈ positions
  · simp [omitted]
  · simp [omitted]

namespace History

def txns (history : History) : List TxnId := history.map (fun seen => seen.record.uid)

private theorem mem_txns_onCommand {history : History} {command : Command} {txn : TxnId} :
    txn ∈ (history.onCommand command).txns ↔
      ∃ seen ∈ history, seen.record.command = command ∧ seen.record.uid = txn := by
  simp only [txns, onCommand, List.mem_map, List.mem_filter, decide_eq_true_eq, and_assoc]

def CommandsApart (history : History) : Prop :=
  ∀ first ∈ history, ∀ second ∈ history,
    first.record.uid = second.record.uid → first.record.command = second.record.command

instance (history : History) : Decidable history.CommandsApart :=
  inferInstanceAs (Decidable (∀ first ∈ history, ∀ second ∈ history, _ → _))

end History

private theorem Trackers.set_get_self (trackers : Trackers) (command : Command) :
    trackers.set command (trackers.get command) = trackers := by
  cases command <;> rfl

namespace Checker

/-! ### One command among others -/

/-- Two checkers judge the observations on a command alike. -/
structure AlikeOn (command : Command) (mine : TxnId → Prop) (one other : Checker) : Prop where
  config : one.config = other.config
  tracker : one.trackers.get command = other.trackers.get command
  awaiting : ∀ txn, mine txn → (txn ∈ one.awaiting ↔ txn ∈ other.awaiting)

variable {config : CheckerConfig} {history before : History} {event : Observation}
  {command : Command} {mine : TxnId → Prop} {one other : Checker}

private theorem AlikeOn.breaches_eq (alike : AlikeOn command mine one other)
    (on : event.record.command = command) (own : mine event.record.uid) :
    one.breaches event.phase event.record = other.breaches event.phase event.record := by
  subst on
  simp only [breaches, attributeBreaches, bareBreaches, alike.config, alike.tracker,
    alike.awaiting _ own]

private theorem AlikeOn.observe_both (alike : AlikeOn command mine one other)
    (distinctOne : one.awaiting.Nodup) (distinctOther : other.awaiting.Nodup)
    (on : event.record.command = command) :
    AlikeOn command mine (one.observe event.phase event.record)
      (other.observe event.phase event.record) := by
  subst on
  refine ⟨alike.config, ?_, fun txn own => ?_⟩
  · rw [observe, observe, Trackers.get_set_self, Trackers.get_set_self, alike.tracker]
  · rw [mem_awaiting_observe distinctOne, mem_awaiting_observe distinctOther, alike.config,
      alike.tracker, alike.awaiting txn own]

private theorem AlikeOn.observe_foreign (alike : AlikeOn command mine one other)
    (distinct : other.awaiting.Nodup) (off : event.record.command ≠ command)
    (foreign : ¬ mine event.record.uid) :
    AlikeOn command mine one (other.observe event.phase event.record) := by
  refine ⟨alike.config, ?_, fun txn own => ?_⟩
  · rw [observe, Trackers.get_set_of_ne _ _ (Ne.symm off), alike.tracker]
  · have different : event.record.uid ≠ txn := by
      rintro rfl
      exact foreign own
    rw [mem_awaiting_observe distinct, alike.awaiting txn own]
    simp [different]

/-- The observations on a command leave a checker of their own as all observations leave one
that sees them all. -/
theorem alikeOn_onCommand {commands : TxnId → Command}
    (known : ∀ seen ∈ history, commands seen.record.uid = seen.record.command)
    (config : CheckerConfig) (command : Command) :
    AlikeOn command (fun txn => commands txn = command)
      ((new config).observeAll (history.onCommand command))
      ((new config).observeAll history) := by
  induction history using List.reverseRecOn with
  | nil => exact ⟨rfl, rfl, fun txn _ => Iff.rfl⟩
  | append_singleton before event ih =>
      have alike := ih (fun seen member => known seen (List.mem_append_left _ member))
      rw [History.onCommand_append_singleton, observeAll_append_singleton]
      by_cases on : event.record.command = command
      · rw [if_pos on, observeAll_append_singleton]
        exact alike.observe_both (nodup_awaiting_observeAll _ _) (nodup_awaiting_observeAll _ _)
          on
      · rw [if_neg on, List.append_nil]
        refine alike.observe_foreign (nodup_awaiting_observeAll _ _) on ?_
        rw [known event (by simp)]
        exact on

private theorem violations_onCommand_eq_filter {commands : TxnId → Command}
    (known : ∀ seen ∈ history, commands seen.record.uid = seen.record.command)
    (config : CheckerConfig) (command : Command) :
    ((new config).observeAll (history.onCommand command)).violations =
      ((new config).observeAll history).violations.filter
        (fun violation => commands violation.txn = command) := by
  induction history using List.reverseRecOn with
  | nil => rfl
  | append_singleton before event ih =>
      have earlier : ∀ seen ∈ before, commands seen.record.uid = seen.record.command :=
        fun seen member => known seen (List.mem_append_left _ member)
      have own : commands event.record.uid = event.record.command := known event (by simp)
      rw [History.onCommand_append_singleton, violations_append_singleton, List.filter_append,
        ← ih earlier]
      by_cases on : event.record.command = command
      · have mine : commands event.record.uid = command := own.trans on
        have all : (found config before event).filter
            (fun violation => commands violation.txn = command) = found config before event := by
          refine List.filter_eq_self.mpr (fun violation member => ?_)
          simp [txn_of_mem_found member, mine]
        rw [if_pos on, violations_append_singleton, all]
        unfold found
        rw [(alikeOn_onCommand earlier config command).breaches_eq on mine]
      · have none : (found config before event).filter
            (fun violation => commands violation.txn = command) = [] := by
          refine List.filter_eq_nil_iff.mpr (fun violation member => ?_)
          simp [txn_of_mem_found member, own, on]
        rw [if_neg on, List.append_nil, none, List.append_nil]

/-! ### Phases of no handshake -/

structure Alike (one other : Checker) : Prop where
  config : one.config = other.config
  trackers : one.trackers = other.trackers
  awaiting : one.awaiting = other.awaiting

private theorem Alike.breaches_eq (alike : Alike one other) (phase : Phase) (txn : Transaction) :
    one.breaches phase txn = other.breaches phase txn := by
  simp only [breaches, attributeBreaches, bareBreaches, alike.config, alike.trackers,
    alike.awaiting]

private theorem Alike.observe_both (alike : Alike one other) (phase : Phase) (txn : Transaction) :
    Alike (one.observe phase txn) (other.observe phase txn) := by
  refine ⟨alike.config, ?_, ?_⟩
  · simp only [observe, alike.trackers]
  · simp only [observe, awaitingAfter, alike.config, alike.trackers, alike.awaiting]

private theorem Alike.observe_internal (alike : Alike one other)
    (internal : event.phase.isInternal = true) :
    Alike one (other.observe event.phase event.record) := by
  have bare : event.phase.isHandshake = false := by
    revert internal
    cases event.phase <;> decide
  have silent : event.phase ≠ .acknowledge := by
    intro acknowledges
    rw [acknowledges] at internal
    cases internal
  refine ⟨alike.config, ?_, ?_⟩
  · rw [observe, Tracker.observe_of_bare _ _ bare, Trackers.set_get_self, alike.trackers]
  · rw [observe, Tracker.observe_of_bare _ _ bare, awaitingAfter, if_neg silent, alike.awaiting]
    simp

private theorem found_of_isInternal (internal : event.phase.isInternal = true)
    (config : CheckerConfig)
    (before : History) :
    found config before event = [Violation.ofBreach event.record (.notHandshake event.phase)] := by
  obtain ⟨phase, record⟩ := event
  cases phase <;> cases internal <;>
    simp [found, breaches, commandBreaches, Tracker.observe, attributeBreaches, bareBreaches,
      Phase.isRequest, Phase.isResponse]

private theorem alike_and_reports_omitting {positions : Finset Nat}
    (internal : ∀ index ∈ positions, ∀ event ∈ history[index]?, event.phase.isInternal = true)
    (config : CheckerConfig) :
    Alike ((new config).observeAll (omitting positions history))
        ((new config).observeAll history) ∧
      reports config (omitting positions history) =
        omitting positions (reports config history) := by
  induction history using List.reverseRecOn with
  | nil => exact ⟨⟨rfl, rfl, rfl⟩, rfl⟩
  | append_singleton before event ih =>
      obtain ⟨alike, same⟩ := ih (fun index member seen stands => internal index member seen
        (by rw [List.getElem?_append_left (List.getElem?_eq_some_iff.mp stands).1]; exact stands))
      have length : (reports config before).length = before.length := List.length_mapIdx
      rw [omitting_append_singleton, reports_append_singleton, omitting_append_singleton, length,
        observeAll_append_singleton]
      by_cases omitted : before.length ∈ positions
      · have silent : event.phase.isInternal = true :=
          internal before.length omitted event (by simp)
        rw [if_pos omitted, if_pos omitted, List.append_nil, List.append_nil]
        exact ⟨alike.observe_internal silent, same⟩
      · rw [if_neg omitted, if_neg omitted, observeAll_append_singleton,
          reports_append_singleton, same, found, found, alike.breaches_eq]
        exact ⟨alike.observe_both _ _, rfl⟩

/-! ### Independence -/

/-- The violations on a command are those of its own observations. Each internal phase is
reported by one violation, and taking any of them out of a history changes no other report
and no owed acknowledgment. -/
theorem violations_onCommand_and_reports_omitting (apart : history.CommandsApart)
    (config : CheckerConfig) :
    (∀ command, ((new config).observeAll (history.onCommand command)).violations =
        ((new config).observeAll history).violations.filter
          (fun violation => violation.txn ∈ (history.onCommand command).txns)) ∧
      ∀ positions : Finset Nat,
        (∀ index ∈ positions, ∀ event ∈ history[index]?, event.phase.isInternal = true) →
        reports config (omitting positions history) =
            omitting positions (reports config history) ∧
          (∀ index ∈ positions, ∀ event ∈ history[index]?,
            ∃ violation, violation.kind = .illegalPhase ∧ violation.txn = event.record.uid ∧
              (reports config history)[index]? = some [violation]) ∧
          ∀ txn, ((new config).observeAll (omitting positions history)).awaitsAck txn =
            ((new config).observeAll history).awaitsAck txn := by
  constructor
  · intro command
    obtain ⟨commands, known⟩ := History.exists_of_uid Transaction.command (fun _ => .other) apart
    rw [violations_onCommand_eq_filter known]
    refine List.filter_congr (fun violation member => ?_)
    obtain ⟨seen, inside, uid⟩ := exists_of_mem_violations member
    rw [← uid, known seen inside, decide_eq_decide, History.mem_txns_onCommand]
    constructor
    · exact fun on => ⟨seen, inside, on, rfl⟩
    · rintro ⟨other, inside', on, same⟩
      rw [apart seen inside other inside' same.symm, on]
  · intro positions internal
    obtain ⟨alike, same⟩ := alike_and_reports_omitting internal config
    refine ⟨same, fun index member event stands => ?_, fun txn => ?_⟩
    · refine ⟨Violation.ofBreach event.record (.notHandshake event.phase), rfl, rfl, ?_⟩
      rw [reports, History.along, List.getElem?_mapIdx, stands, Option.map_some,
        found_of_isInternal (internal index member event stands)]
    · rw [awaitsAck, awaitsAck, alike.awaiting]

theorem violations_onCommand_and_reports_omitting_of_readAndWrite :
    History.CommandsApart [⟨.beginRequest, .plain ⟨0⟩ .read⟩, ⟨.writeValid, .plain ⟨1⟩ .write⟩,
        ⟨.endRequest, .plain ⟨1⟩ .write⟩, ⟨.beginResponse, .plain ⟨0⟩ .read⟩] ∧
      ((new {}).observeAll (History.onCommand [⟨.beginRequest, .plain ⟨0⟩ .read⟩,
          ⟨.writeValid, .plain ⟨1⟩ .write⟩, ⟨.endRequest, .plain ⟨1⟩ .write⟩,
          ⟨.beginResponse, .plain ⟨0⟩ .read⟩] .write)).violations =
        [⟨.notHandshake .writeValid, ⟨1⟩, 0, 0⟩,
          ⟨.unmatched .endRequest .beginRequest, ⟨1⟩, 0, 0⟩] ∧
      reports {} (omitting {1} [⟨.beginRequest, .plain ⟨0⟩ .read⟩,
          ⟨.writeValid, .plain ⟨1⟩ .write⟩, ⟨.endRequest, .plain ⟨1⟩ .write⟩,
          ⟨.beginResponse, .plain ⟨0⟩ .read⟩]) =
        [[], [⟨.unmatched .endRequest .beginRequest, ⟨1⟩, 0, 0⟩],
          [⟨.neverAccepted, ⟨0⟩, 0, 0⟩]] := by
  have apart : History.CommandsApart [⟨.beginRequest, .plain ⟨0⟩ .read⟩,
      ⟨.writeValid, .plain ⟨1⟩ .write⟩, ⟨.endRequest, .plain ⟨1⟩ .write⟩,
      ⟨.beginResponse, .plain ⟨0⟩ .read⟩] := by decide
  obtain ⟨onCommand, omitted⟩ := violations_onCommand_and_reports_omitting apart {}
  exact ⟨apart, (onCommand .write).trans (by decide),
    (omitted {1} (by decide)).1.trans (by decide)⟩

end Checker

end Handshake
