import Mathlib.Data.List.Basic
import Mathlib.Data.List.Induction
import Handshake.Checker.Basic
import Handshake.Proofs.Course
set_option autoImplicit false

/-! Histories of observed phases. A transaction's own phases are those observed of its
identity; the open phase of a command's side is the latest observation on it, if that is
a beginning. A rule of a history relates an observation to those before it. -/

namespace Handshake

structure Observation where
  phase : Phase
  record : Transaction
  deriving DecidableEq

/-- Observed phases, oldest first. -/
abbrev History := List Observation

namespace History

def phasesOf (history : History) (txn : TxnId) : List Phase :=
  (history.filter (fun seen => seen.record.uid = txn)).map Observation.phase

def handshakesOf (history : History) (txn : TxnId) : List Phase :=
  (history.phasesOf txn).filter Phase.isHandshake

def latest? (history : History) (command : Command) (side : Side) : Option Observation :=
  (history.filter (fun seen =>
    seen.record.command = command ∧ seen.phase.side? = some side)).getLast?

/-- The transactions of a command and an identifier that performed a phase, in order. -/
def performed (history : History) (phase : Phase) (command : Command) (axiId : Nat) :
    List TxnId :=
  (history.filter (fun seen =>
    seen.phase = phase ∧ seen.record.command = command ∧ seen.record.axiId = axiId)).map
      (fun seen => seen.record.uid)

def Consistent (history : History) : Prop :=
  ∀ first ∈ history, ∀ second ∈ history,
    first.record.uid = second.record.uid → first.record = second.record

def onCommand (history : History) (command : Command) : History :=
  history.filter (fun seen => seen.record.command = command)

/-- The values of a function of an observation and the history before it, in order. -/
def along {α : Type} (value : History → Observation → α) (history : History) : List α :=
  history.mapIdx (fun index event => value (history.take index) event)

/-- A rule holds of every observation and the history before it. -/
def Throughout (rule : History → Observation → Prop) (history : History) : Prop :=
  ∀ before event after, history = before ++ event :: after → rule before event

instance (history : History) : Decidable history.Consistent :=
  inferInstanceAs (Decidable (∀ first ∈ history, ∀ second ∈ history, _))

theorem throughout_iff_forall_index (rule : History → Observation → Prop) (history : History) :
    (∀ index : Fin history.length, rule (history.take index) history[index]) ↔
      history.Throughout rule := by
  constructor
  · intro holds before event after split
    subst split
    have within : before.length < (before ++ event :: after).length := by simp
    have atEvent := holds ⟨before.length, within⟩
    simpa using atEvent
  · intro holds index
    refine holds _ _ (history.drop (index + 1)) ?_
    exact ((List.take_append_drop index history).symm.trans
      (congrArg _ (List.drop_eq_getElem_cons index.isLt)))

instance (rule : History → Observation → Prop) [∀ before event, Decidable (rule before event)]
    (history : History) : Decidable (history.Throughout rule) :=
  decidable_of_iff _ (throughout_iff_forall_index rule history)

variable {rule : History → Observation → Prop} {history : History}

theorem throughout_append_singleton {event : Observation} :
    (history ++ [event]).Throughout rule ↔ history.Throughout rule ∧ rule history event := by
  constructor
  · intro holds
    refine ⟨fun before seen after split => ?_, holds history event [] rfl⟩
    exact holds before seen (after ++ [event]) (by rw [split, List.append_assoc]; rfl)
  · intro ⟨holds, last⟩ before seen after split
    rcases List.eq_nil_or_concat after with rfl | ⟨middle, final, rfl⟩
    · obtain ⟨rfl, same⟩ := List.append_inj' split rfl
      cases same
      exact last
    · rw [List.concat_eq_append, ← List.cons_append, ← List.append_assoc] at split
      obtain ⟨rfl, -⟩ := List.append_inj' split rfl
      exact holds before seen middle rfl

theorem Throughout.of_append {before after : History}
    (holds : (before ++ after).Throughout rule) : before.Throughout rule := by
  intro earlier event later split
  exact holds earlier event (later ++ after) (by rw [split, List.append_assoc]; rfl)

/-! ### One more observation -/

theorem along_append_singleton {α : Type} (value : History → Observation → α)
    (history : History) (event : Observation) :
    (history ++ [event]).along value = history.along value ++ [value history event] := by
  unfold along
  rw [List.mapIdx_concat, List.take_left]
  congr 1
  refine List.mapIdx_eq_mapIdx_iff.mpr (fun index within => ?_)
  rw [List.take_append_of_le_length (Nat.le_of_lt within)]

theorem onCommand_append_singleton (history : History) (event : Observation)
    (command : Command) :
    (history ++ [event]).onCommand command =
      history.onCommand command ++ if event.record.command = command then [event] else [] := by
  by_cases own : event.record.command = command
  · simp [onCommand, own]
  · simp [onCommand, own]

theorem phasesOf_append_singleton (history : History) (event : Observation) (txn : TxnId) :
    (history ++ [event]).phasesOf txn =
      history.phasesOf txn ++ if event.record.uid = txn then [event.phase] else [] := by
  by_cases own : event.record.uid = txn
  · simp [phasesOf, own]
  · simp [phasesOf, own]

theorem handshakesOf_append_singleton (history : History) (event : Observation)
    (txn : TxnId) :
    (history ++ [event]).handshakesOf txn =
      history.handshakesOf txn ++
        if event.record.uid = txn ∧ event.phase.isHandshake then [event.phase] else [] := by
  by_cases own : event.record.uid = txn
  · by_cases handshake : event.phase.isHandshake
    · simp [handshakesOf, phasesOf_append_singleton, own, handshake]
    · simp [handshakesOf, phasesOf_append_singleton, own, handshake]
  · simp [handshakesOf, phasesOf_append_singleton, own]

theorem handshakesOf_append (before after : History) (txn : TxnId) :
    (before ++ after).handshakesOf txn = before.handshakesOf txn ++ after.handshakesOf txn := by
  simp only [handshakesOf, phasesOf, List.filter_append, List.map_append]

theorem handshakesOf_append_cons (before after : History) {event : Observation}
    (handshake : event.phase.isHandshake = true) :
    (before ++ event :: after).handshakesOf event.record.uid =
      before.handshakesOf event.record.uid ++
        event.phase :: handshakesOf after event.record.uid := by
  rw [List.append_cons, handshakesOf_append, handshakesOf_append_singleton,
    if_pos ⟨rfl, handshake⟩, List.append_assoc]
  rfl

theorem latest?_append_singleton (history : History) (event : Observation) (command : Command)
    (side : Side) :
    (history ++ [event]).latest? command side =
      if event.record.command = command ∧ event.phase.side? = some side then some event
      else history.latest? command side := by
  by_cases on : event.record.command = command ∧ event.phase.side? = some side
  · simp [latest?, on]
  · rw [if_neg on]
    unfold latest?
    rw [List.filter_append, List.filter_singleton, decide_eq_false on]
    exact congrArg List.getLast? (List.append_nil _)

theorem performed_append_singleton (history : History) (event : Observation) (phase : Phase)
    (command : Command) (axiId : Nat) :
    (history ++ [event]).performed phase command axiId =
      history.performed phase command axiId ++
        if event.phase = phase ∧ event.record.command = command ∧ event.record.axiId = axiId
        then [event.record.uid] else [] := by
  by_cases performs :
      event.phase = phase ∧ event.record.command = command ∧ event.record.axiId = axiId
  · simp [performed, performs]
  · rw [if_neg performs, List.append_nil]
    unfold performed
    rw [List.filter_append, List.filter_singleton, decide_eq_false performs]
    exact congrArg _ (List.append_nil _)

theorem mem_of_latest? {command : Command} {side : Side} {seen : Observation}
    (latest : history.latest? command side = some seen) :
    seen ∈ history ∧ seen.record.command = command ∧ seen.phase.side? = some side := by
  have member := List.mem_of_getLast? latest
  simpa only [List.mem_filter, decide_eq_true_eq] using member

theorem mem_phasesOf {txn : TxnId} {phase : Phase} :
    phase ∈ history.phasesOf txn ↔
      ∃ seen ∈ history, seen.record.uid = txn ∧ seen.phase = phase := by
  simp only [phasesOf, List.mem_map, List.mem_filter, decide_eq_true_eq, and_assoc]

theorem exists_first {seen : Observation} (member : seen ∈ history) :
    ∃ (before : History) (first : Observation) (after : History),
      history = before ++ first :: after ∧ first.record.uid = seen.record.uid ∧
        before.phasesOf seen.record.uid = [] := by
  have present : (history.find? (fun other => other.record.uid = seen.record.uid)).isSome :=
    List.find?_isSome.mpr ⟨seen, member, by simp⟩
  obtain ⟨first, found⟩ := Option.isSome_iff_exists.mp present
  obtain ⟨own, before, after, split, apart⟩ := List.find?_eq_some_iff_append.mp found
  refine ⟨before, first, after, split, by simpa using own, ?_⟩
  refine List.eq_nil_iff_forall_not_mem.mpr (fun phase among => ?_)
  obtain ⟨other, inBefore, uid, -⟩ := mem_phasesOf.mp among
  simpa [uid] using apart other inBefore

theorem mem_phasesOf_of_mem_performed {phase : Phase} {command : Command} {axiId : Nat}
    {txn : TxnId} (member : txn ∈ history.performed phase command axiId) :
    phase ∈ history.phasesOf txn := by
  obtain ⟨seen, among, uid⟩ := List.mem_map.mp member
  simp only [List.mem_filter, decide_eq_true_eq] at among
  exact mem_phasesOf.mpr ⟨seen, among.1, uid, among.2.1⟩

/-- What is the same in all records of a uid is a function of the uid. -/
theorem exists_of_uid {α : Type} (value : Transaction → α) (otherwise : TxnId → α)
    (same : ∀ first ∈ history, ∀ second ∈ history,
      first.record.uid = second.record.uid → value first.record = value second.record) :
    ∃ valueOf : TxnId → α, ∀ seen ∈ history, valueOf seen.record.uid = value seen.record := by
  refine ⟨fun txn => ((history.find? (fun seen => seen.record.uid = txn)).map
    (fun seen => value seen.record)).getD (otherwise txn), fun seen member => ?_⟩
  have present : (history.find? (fun other => other.record.uid = seen.record.uid)).isSome :=
    List.find?_isSome.mpr ⟨seen, member, by simp⟩
  obtain ⟨first, found⟩ := Option.isSome_iff_exists.mp present
  simp only [found, Option.map_some, Option.getD_some]
  exact same first (List.mem_of_find?_eq_some found) seen member
    (by simpa using List.find?_some found)

theorem mem_handshakesOf {txn : TxnId} {phase : Phase} :
    phase ∈ history.handshakesOf txn ↔
      phase ∈ history.phasesOf txn ∧ phase.isHandshake = true :=
  List.mem_filter

end History

/-! ### The checker along a history -/

namespace Checker

def observeAll (checker : Checker) (history : History) : Checker :=
  history.foldl (fun reached seen => reached.observe seen.phase seen.record) checker

theorem observeAll_append_singleton (checker : Checker) (history : History)
    (event : Observation) :
    checker.observeAll (history ++ [event]) =
      (checker.observeAll history).observe event.phase event.record := by
  simp only [observeAll, List.foldl_append, List.foldl_cons, List.foldl_nil]

theorem config_observeAll (checker : Checker) (history : History) :
    (checker.observeAll history).config = checker.config := by
  induction history generalizing checker with
  | nil => rfl
  | cons first rest ih => exact ih _

def Clean (config : CheckerConfig) (history : History) : Prop :=
  ((new config).observeAll history).violations = []

instance (config : CheckerConfig) (history : History) : Decidable (Clean config history) :=
  inferInstanceAs (Decidable (_ = []))

theorem clean_append_singleton {config : CheckerConfig} {history : History}
    {event : Observation} :
    Clean config (history ++ [event]) ↔
      Clean config history ∧
        ((new config).observeAll history).breaches event.phase event.record = [] := by
  simp only [Clean, observeAll_append_singleton, observe, List.append_eq_nil_iff,
    List.map_eq_nil_iff]

theorem clean_iff_throughout {config : CheckerConfig} {history : History} :
    Clean config history ↔ history.Throughout (fun before event =>
      ((new config).observeAll before).breaches event.phase event.record = []) := by
  induction history using List.reverseRecOn with
  | nil =>
      refine ⟨fun _ before event after split => ?_, fun _ => rfl⟩
      simp at split
  | append_singleton before event ih =>
      rw [clean_append_singleton, History.throughout_append_singleton, ih]

end Checker

end Handshake
