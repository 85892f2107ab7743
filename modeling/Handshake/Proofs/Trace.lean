import Handshake.Proofs.Checker.Account
import Handshake.Proofs.Trace.Declaration
import Handshake.Trace.Basic
set_option autoImplicit false

/-! What a trace that was read tells of its transactions. Each is numbered in the order of
declaration, is declared by its first event and by no other, and always carries the record
that it was declared with. -/

namespace Handshake.Trace

def Event.observation (event : Event) : Observation := ⟨event.phase, event.record⟩

def history (trace : Trace) : History := trace.events.map Event.observation

def recordAt (trace : Trace) (txn : TxnId) : Transaction :=
  (trace.declared[txn.number]?.map Declared.record).getD (.plain txn .other)

/-- What holds of the events and the declarations read so far. -/
structure WellFormed (events : List Event) (declared : List Declared) : Prop where
  numbered : ∀ (index : Nat) (entry : Declared), declared[index]? = some entry →
    entry.record.uid = ⟨index⟩
  known : ∀ event ∈ events, ∃ entry ∈ declared, entry.record = event.record
  mentioned : ∀ entry ∈ declared, ∃ event ∈ events, event.record = entry.record
  fresh : events.Pairwise (fun earlier later =>
    later.declares = true → earlier.record.uid ≠ later.record.uid)

/-! ### Reading -/

theorem uid_of_declare {uid : TxnId} {label : List Char} {given : List Attribute}
    {record : Transaction} (declared : declare uid label given = .ok record) :
    record.uid = uid := by
  obtain ⟨settings, command, -, -, rfl⟩ := declare_eq_ok_iff.mp declared
  rfl

theorem timeOf_eq_ok_iff {last time : Nat} {literal : List Char} :
    timeOf last literal = .ok time ↔ Integer.parse literal = .ok time ∧ last ≤ time := by
  unfold timeOf
  cases Integer.parse literal with
  | error fault => simp
  | ok value =>
      by_cases earlier : value < last
      · simp only [if_pos earlier, Except.ok.injEq]
        constructor
        · rintro ⟨⟩
        · rintro ⟨rfl, ordered⟩
          exact absurd earlier (Nat.not_lt.mpr ordered)
      · simp only [if_neg earlier, Except.ok.injEq]
        constructor
        · rintro rfl
          exact ⟨rfl, Nat.not_lt.mp earlier⟩
        · exact And.left

theorem phaseOf_eq_ok_iff {name : List Char} {phase : Phase} :
    phaseOf name = .ok phase ↔ Phase.ofName? (String.ofList name) = some phase := by
  unfold phaseOf
  cases Phase.ofName? (String.ofList name) with
  | none => simp
  | some found => simp

theorem recordOf_eq_ok_iff {declared : List Declared} {label : List Char} {given : List Attribute}
    {record : Transaction} {declares : Bool} :
    recordOf declared label given = .ok (record, declares) ↔
      (declares = false ∧ given = [] ∧ ∃ entry, entry.record = record ∧
          declared.find? (fun known => known.label = label) = some entry) ∨
        (declares = true ∧ given ≠ [] ∧ (∀ entry ∈ declared, entry.label ≠ label) ∧
          declare ⟨declared.length⟩ label given = .ok record) := by
  unfold recordOf
  cases found : declared.find? (fun known => known.label = label) with
  | some entry =>
      have known : ¬ ∀ entry ∈ declared, entry.label ≠ label := fun unknown =>
        unknown entry (List.mem_of_find?_eq_some found) (by simpa using List.find?_some found)
      by_cases bare : given = []
      · simp [bare, and_comm, eq_comm]
      · simp [bare, known]
  | none =>
      have unknown : ∀ entry ∈ declared, entry.label ≠ label := by simpa using found
      by_cases bare : given = []
      · simp [bare]
      · rw [if_neg bare, map_eq_ok_iff]
        constructor
        · rintro ⟨made, declaring, same⟩
          cases same
          exact .inr ⟨rfl, bare, unknown, declaring⟩
        · rintro (⟨-, empty, -⟩ | ⟨rfl, -, -, declaring⟩)
          · exact absurd empty bare
          · exact ⟨record, declaring, rfl⟩

theorem recordOf_cases {declared : List Declared} {label : List Char} {given : List Attribute}
    {record : Transaction} {declares : Bool}
    (found : recordOf declared label given = .ok (record, declares)) :
    (declares = false ∧ ∃ entry ∈ declared, entry.record = record) ∨
      (declares = true ∧ record.uid = ⟨declared.length⟩) := by
  rcases recordOf_eq_ok_iff.mp found with ⟨repeats, -, entry, same, known⟩ | ⟨first, -, -, made⟩
  · exact .inl ⟨repeats, entry, List.mem_of_find?_eq_some known, same⟩
  · exact .inr ⟨first, uid_of_declare made⟩

namespace WellFormed

variable {events : List Event} {declared : List Declared} {event : Event}

theorem empty : WellFormed [] [] where
  numbered := by
    intro index entry present
    cases present
  known := by
    intro event member
    cases member
  mentioned := by
    intro entry member
    cases member
  fresh := List.Pairwise.nil

theorem uid_lt (wellFormed : WellFormed events declared) {entry : Declared}
    (member : entry ∈ declared) : entry.record.uid.number < declared.length := by
  obtain ⟨index, present⟩ := List.mem_iff_getElem?.mp member
  rw [wellFormed.numbered index entry present]
  exact (List.getElem?_eq_some_iff.mp present).1

theorem uids_eq (wellFormed : WellFormed events declared) :
    declared.map (fun entry => entry.record.uid) =
      (List.range declared.length).map TxnId.mk := by
  refine List.ext_getElem? (fun index => ?_)
  rw [List.getElem?_map, List.getElem?_map]
  cases present : declared[index]? with
  | none =>
      rw [List.getElem?_eq_none]
      · rfl
      · rw [List.length_range]
        exact List.getElem?_eq_none_iff.mp present
  | some entry =>
      rw [List.getElem?_range (List.getElem?_eq_some_iff.mp present).1]
      exact congrArg some (wellFormed.numbered index entry present)

theorem nodup_uids (wellFormed : WellFormed events declared) :
    (declared.map (fun entry => entry.record.uid)).Nodup := by
  rw [wellFormed.uids_eq]
  exact List.nodup_range.map (fun _ _ same => congrArg TxnId.number same)

theorem mention (wellFormed : WellFormed events declared) (repeats : event.declares = false)
    {entry : Declared} (member : entry ∈ declared) (same : entry.record = event.record) :
    WellFormed (events ++ [event]) declared := by
  refine ⟨wellFormed.numbered, ?_, ?_, ?_⟩
  · intro other inside
    rcases List.mem_append.mp inside with earlier | last
    · exact wellFormed.known other earlier
    · rw [List.mem_singleton.mp last]
      exact ⟨entry, member, same⟩
  · intro other inside
    obtain ⟨first, among, equal⟩ := wellFormed.mentioned other inside
    exact ⟨first, List.mem_append_left _ among, equal⟩
  · refine List.pairwise_append.mpr ⟨wellFormed.fresh, List.pairwise_singleton _ _, ?_⟩
    intro earlier among later last declares
    rw [List.mem_singleton.mp last, repeats] at declares
    cases declares

theorem declaration (wellFormed : WellFormed events declared) (label : List Char)
    (number : event.record.uid = ⟨declared.length⟩) :
    WellFormed (events ++ [event]) (declared ++ [⟨label, event.record⟩]) := by
  refine ⟨?_, ?_, ?_, ?_⟩
  · intro index entry present
    rcases Nat.lt_or_ge index declared.length with earlier | last
    · rw [List.getElem?_append_left earlier] at present
      exact wellFormed.numbered index entry present
    · have bounded := (List.getElem?_eq_some_iff.mp present).1
      rw [List.length_append, List.length_singleton] at bounded
      obtain rfl : index = declared.length := by omega
      rw [List.getElem?_concat_length, Option.some.injEq] at present
      rw [← present]
      exact number
  · intro other inside
    rcases List.mem_append.mp inside with earlier | last
    · obtain ⟨entry, member, same⟩ := wellFormed.known other earlier
      exact ⟨entry, List.mem_append_left _ member, same⟩
    · rw [List.mem_singleton.mp last]
      exact ⟨_, List.mem_concat_self, rfl⟩
  · intro entry inside
    rcases List.mem_append.mp inside with earlier | last
    · obtain ⟨first, among, same⟩ := wellFormed.mentioned entry earlier
      exact ⟨first, List.mem_append_left _ among, same⟩
    · rw [List.mem_singleton.mp last]
      exact ⟨event, List.mem_concat_self, rfl⟩
  · refine List.pairwise_append.mpr ⟨wellFormed.fresh, List.pairwise_singleton _ _, ?_⟩
    intro earlier among later last declares same
    obtain ⟨entry, member, equal⟩ := wellFormed.known earlier among
    have taken := wellFormed.uid_lt member
    rw [equal, same, List.mem_singleton.mp last, number] at taken
    exact Nat.lt_irrefl _ taken

end WellFormed

theorem Progress.add_eq_ok_iff {progress next : Progress} {line : Nat} {statement : Statement} :
    progress.add line statement = .ok next ↔
      ∃ time phase record declares, timeOf progress.lastTime statement.time = .ok time ∧
        phaseOf statement.phase = .ok phase ∧
        recordOf progress.declared statement.label statement.attributes = .ok (record, declares) ∧
        Progress.mk
            (progress.events ++ [⟨line, time, statement.direction, phase, record, declares⟩])
            (if declares then progress.declared ++ [⟨statement.label, record⟩]
              else progress.declared) time = next := by
  simp only [Progress.add, bind_eq_ok_iff, Prod.exists, Except.ok.injEq, exists_and_left]

/-- What adding a statement adds: an event of a transaction that was declared before, or one
that declares its transaction. -/
theorem Progress.add_cases {progress next : Progress} {line : Nat} {statement : Statement}
    (added : progress.add line statement = .ok next) :
    ∃ event, next.events = progress.events ++ [event] ∧
      ((event.declares = false ∧ next.declared = progress.declared ∧
          ∃ entry ∈ progress.declared, entry.record = event.record) ∨
        (event.declares = true ∧ event.record.uid = ⟨progress.declared.length⟩ ∧
          ∃ label, next.declared = progress.declared ++ [⟨label, event.record⟩])) := by
  obtain ⟨time, phase, record, declares, -, -, recorded, rfl⟩ := Progress.add_eq_ok_iff.mp added
  refine ⟨_, rfl, ?_⟩
  rcases recordOf_cases recorded with ⟨repeats, known⟩ | ⟨first, number⟩
  · exact .inl ⟨repeats, if_neg (by rw [repeats]; exact Bool.false_ne_true), known⟩
  · exact .inr ⟨first, number, statement.label, if_pos first⟩

/-- What is kept by adding a statement, to those added before, is kept by adding all. -/
theorem addAll_run (holds : List Placed → Progress → Prop)
    (step : ∀ {done one progress next}, holds done progress →
      progress.add one.line one.statement = .ok next → holds (done ++ [one]) next)
    {text : List Char} (done : List Placed) {placed : List Placed} {progress final : Progress}
    (held : holds done progress) (added : addAll text progress placed = .ok final) :
    holds (done ++ placed) final := by
  induction placed generalizing done progress with
  | nil =>
      cases added
      rw [List.append_nil]
      exact held
  | cons first rest ih =>
      unfold addAll at added
      split at added
      · cases added
      · rename_i next stepped
        rw [List.append_cons]
        exact ih (done ++ [first]) (step held stepped) added

theorem parse_eq_ok_iff {text : List Char} {trace : Trace} :
    parse text = .ok trace ↔ ∃ placed final, statements text = .ok placed ∧
      addAll text .empty placed = .ok final ∧ Trace.mk final.events final.declared = trace := by
  unfold parse
  cases statements text with
  | error mismatch => simp
  | ok placed => simp [map_eq_ok_iff]

section

variable {holds : List Event → List Declared → Prop}
  (mention : ∀ {events declared event}, holds events declared → event.declares = false →
    (∃ entry ∈ declared, entry.record = event.record) → holds (events ++ [event]) declared)
  (declaration : ∀ {events declared event} label, holds events declared →
    event.declares = true → event.record.uid = ⟨declared.length⟩ →
      holds (events ++ [event]) (declared ++ [⟨label, event.record⟩]))

include mention declaration

/-- What holds of nothing, and is kept by a further mention and by a further declaration, holds
of every trace that was read. -/
theorem parse_induction (empty : holds [] []) {text : List Char} {trace : Trace}
    (parsed : parse text = .ok trace) : holds trace.events trace.declared := by
  obtain ⟨placed, final, -, added, rfl⟩ := parse_eq_ok_iff.mp parsed
  refine addAll_run (fun _ progress => holds progress.events progress.declared) ?_ [] empty added
  intro done one progress next held stepped
  obtain ⟨event, events, ⟨repeats, same, known⟩ | ⟨declares, number, label, more⟩⟩ :=
    Progress.add_cases stepped
  · rw [events, same]
    exact mention held repeats known
  · rw [events, more]
    exact declaration label held declares number

end

theorem parse_wellFormed {text : List Char} {trace : Trace} (parsed : parse text = .ok trace) :
    WellFormed trace.events trace.declared := by
  refine parse_induction ?_ ?_ .empty parsed
  · intro events declared event wellFormed repeats known
    obtain ⟨entry, member, same⟩ := known
    exact wellFormed.mention repeats member same
  · intro events declared event label wellFormed declares number
    exact wellFormed.declaration label number

theorem parse_declarations {text : List Char} {trace : Trace}
    (parsed : parse text = .ok trace) :
    (trace.events.filter Event.declares).map Event.record =
      trace.declared.map Declared.record := by
  refine @parse_induction (fun events declared =>
    (events.filter Event.declares).map Event.record = declared.map Declared.record) ?_ ?_ rfl
      text trace parsed
  · intro events declared event same repeats known
    rw [List.filter_append, List.map_append, same, List.filter_cons_of_neg (by simp [repeats])]
    exact List.append_nil _
  · intro events declared event label same declares number
    rw [List.filter_append, List.map_append, same, List.filter_cons_of_pos declares,
      List.map_append]
    rfl

theorem exists_parse_of_toOption {α : Type} {text : List Char} {tell : Trace → α} {answer : α}
    (computed : (parse text).toOption.map tell = some answer) :
    ∃ trace, parse text = .ok trace ∧ tell trace = answer := by
  cases parsed : parse text with
  | error failure =>
      rw [parsed] at computed
      cases computed
  | ok trace =>
      rw [parsed] at computed
      exact ⟨trace, rfl, Option.some.inj computed⟩

/-! ### The history of a trace -/

variable {trace : Trace}

theorem recordAt_of_mem (wellFormed : WellFormed trace.events trace.declared)
    {entry : Declared} (member : entry ∈ trace.declared) :
    trace.recordAt entry.record.uid = entry.record := by
  obtain ⟨index, present⟩ := List.mem_iff_getElem?.mp member
  have number := wellFormed.numbered index entry present
  rw [recordAt, number, present]
  rfl

theorem known_history (wellFormed : WellFormed trace.events trace.declared) :
    History.Known trace.recordAt trace.history := by
  intro seen member
  obtain ⟨event, among, rfl⟩ := List.mem_map.mp member
  obtain ⟨entry, declared, same⟩ := wellFormed.known event among
  have record := recordAt_of_mem wellFormed declared
  rw [same] at record
  exact record

theorem phasesOf_of_declares (wellFormed : WellFormed trace.events trace.declared)
    {before after : List Event} {event : Event} (split : trace.events = before ++ event :: after)
    (declares : event.declares = true) :
    History.phasesOf (before.map Event.observation) event.record.uid = [] := by
  have fresh := wellFormed.fresh
  rw [split] at fresh
  refine List.eq_nil_iff_forall_not_mem.mpr (fun phase member => ?_)
  obtain ⟨seen, among, uid, -⟩ := History.mem_phasesOf.mp member
  obtain ⟨earlier, inside, rfl⟩ := List.mem_map.mp among
  exact (List.pairwise_append.mp fresh).2.2 earlier inside event List.mem_cons_self declares uid

end Handshake.Trace
