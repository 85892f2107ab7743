import Mathlib.Data.List.Forall2
import Handshake.Proofs.Trace
set_option autoImplicit false

/-! What every accepted text says of its trace. Each event is told by the statement on its line:
its label is that of its transaction, which is declared by the first event that mentions it, and
with a record within its widths. -/

namespace Handshake.Trace

/-- An event is what a statement says, of the transaction that is declared under its label. -/
structure Event.ToldBy (declared : List Declared) (event : Event) (one : Placed) : Prop where
  line : event.line = one.line
  time : Integer.parse one.statement.time = .ok event.time
  direction : event.direction = one.statement.direction
  phase : Phase.ofName? (String.ofList one.statement.phase) = some event.phase
  entry : declared[event.record.uid.number]? = some ⟨one.statement.label, event.record⟩
  widths : event.record.WithinWidths
  -- the byte count is that of the full burst, unless the declaration gives it
  bytes : event.declares = true →
    "bytes".toList ∉ one.statement.attributes.map Attribute.name →
      event.record.bytes = event.record.burstBytes

/-- What a reader of a trace relies on, and how the trace stands to its text. -/
structure Faithful (text : List Char) (trace : Trace) : Prop where
  times : (trace.events.map Event.time).Pairwise (· ≤ ·)
  lines : (trace.events.map Event.line).Pairwise (· ≤ ·)
  labels : (trace.declared.map Declared.label).Nodup
  count : trace.transactionCount = (trace.events.filter Event.declares).length
  -- the transactions are numbered in the order of their declarations
  numbers : (trace.events.filter Event.declares).map (fun event => event.record.uid) =
    (List.range trace.transactionCount).map TxnId.mk
  -- a transaction is declared by its first event, and by no other
  declares : ∀ before event after, trace.events = before ++ event :: after →
    (event.declares = true ↔ ∀ earlier ∈ before, earlier.record.uid ≠ event.record.uid)
  records : ∀ event ∈ trace.events, ∀ other ∈ trace.events,
    event.record.uid = other.record.uid → event.record = other.record
  told : ∃ placed, statements text = .ok placed ∧ (∀ one ∈ placed, one.StandsIn text) ∧
    List.Forall₂ (fun event one => event.ToldBy trace.declared one ∧
      trace.label? event.record.uid = some (String.ofList one.statement.label))
      trace.events placed

/-! ### Reading statement by statement -/

private theorem Event.ToldBy.append {declared : List Declared} {event : Event} {one : Placed}
    (told : event.ToldBy declared one) (more : List Declared) :
    event.ToldBy (declared ++ more) one :=
  { told with
    entry := by
      rw [List.getElem?_append_left (List.getElem?_eq_some_iff.mp told.entry).1]
      exact told.entry }

structure Progress.Accounts (done : List Placed) (progress : Progress) : Prop where
  wellFormed : WellFormed progress.events progress.declared
  told : List.Forall₂ (Event.ToldBy progress.declared) progress.events done
  times : (progress.events.map Event.time).Pairwise (· ≤ ·)
  past : ∀ event ∈ progress.events, event.time ≤ progress.lastTime
  labels : (progress.declared.map Declared.label).Nodup
  widths : ∀ entry ∈ progress.declared, entry.record.WithinWidths

namespace Progress.Accounts

variable {done : List Placed} {progress next : Progress} {one : Placed}

private theorem empty : Accounts [] .empty where
  wellFormed := .empty
  told := .nil
  times := .nil
  past := fun _ member => nomatch member
  labels := List.nodup_nil
  widths := fun _ member => nomatch member

private theorem extend (accounts : Accounts done progress) {event : Event} {more : List Declared}
    (wellFormed : WellFormed (progress.events ++ [event]) (progress.declared ++ more))
    (later : progress.lastTime ≤ event.time)
    (told : event.ToldBy (progress.declared ++ more) one)
    (labels : ((progress.declared ++ more).map Declared.label).Nodup)
    (widths : ∀ entry ∈ more, entry.record.WithinWidths) :
    Accounts (done ++ [one])
      ⟨progress.events ++ [event], progress.declared ++ more, event.time⟩ where
  wellFormed := wellFormed
  told := List.rel_append (accounts.told.imp (fun _ _ earlier => earlier.append more))
    (.cons told .nil)
  times := by
    rw [List.map_append, List.pairwise_append]
    refine ⟨accounts.times, List.pairwise_singleton _ _, ?_⟩
    intro time member last same
    obtain ⟨earlier, among, rfl⟩ := List.mem_map.mp member
    rw [List.mem_singleton.mp same]
    exact Nat.le_trans (accounts.past earlier among) later
  past := by
    intro other member
    rcases List.mem_append.mp member with earlier | last
    · exact Nat.le_trans (accounts.past other earlier) later
    · rw [List.mem_singleton.mp last]
  labels := labels
  widths := by
    intro entry member
    exact (List.mem_append.mp member).elim (accounts.widths entry) (widths entry)

private theorem add (accounts : Accounts done progress)
    (added : progress.add one.line one.statement = .ok next) : Accounts (done ++ [one]) next := by
  obtain ⟨time, phase, record, declares, timed, phased, recorded, rfl⟩ := add_eq_ok_iff.mp added
  obtain ⟨parsed, later⟩ := timeOf_eq_ok_iff.mp timed
  rw [phaseOf_eq_ok_iff] at phased
  rcases recordOf_eq_ok_iff.mp recorded with
    ⟨rfl, -, entry, rfl, found⟩ | ⟨rfl, given, unknown, declared⟩
  · have member := List.mem_of_find?_eq_some found
    have label : entry.label = one.statement.label := by simpa using List.find?_some found
    obtain ⟨index, present⟩ := List.mem_iff_getElem?.mp member
    have number := accounts.wellFormed.numbered index entry present
    rw [if_neg Bool.false_ne_true, ← List.append_nil progress.declared]
    refine accounts.extend ?_ later ?_ ?_ (fun _ none => nomatch none)
    · rw [List.append_nil]
      exact accounts.wellFormed.mention rfl member rfl
    · exact
        { line := rfl
          time := parsed
          direction := rfl
          phase := phased
          entry := by rw [List.append_nil, number, present, ← label]
          widths := accounts.widths entry member
          bytes := fun declares => nomatch declares }
    · rw [List.append_nil]
      exact accounts.labels
  · have number := uid_of_declare declared
    have widths := withinWidths_of_declare declared
    rw [if_pos rfl]
    refine accounts.extend ?_ later ?_ ?_ (List.forall_mem_singleton.mpr widths)
    · exact accounts.wellFormed.declaration _ number
    · exact
        { line := rfl
          time := parsed
          direction := rfl
          phase := phased
          entry := by rw [number, List.getElem?_concat_length]
          widths
          bytes := fun _ => bytes_of_declare declared }
    · rw [List.map_append, List.nodup_append]
      refine ⟨accounts.labels, List.nodup_singleton _, ?_⟩
      intro label member last same
      obtain ⟨entry, among, rfl⟩ := List.mem_map.mp member
      rw [List.mem_singleton.mp same]
      exact unknown entry among

end Progress.Accounts

theorem parse_accounts {text : List Char} {trace : Trace} (parsed : parse text = .ok trace) :
    ∃ placed final, statements text = .ok placed ∧ Progress.Accounts placed final ∧
      final.events = trace.events ∧ final.declared = trace.declared := by
  obtain ⟨placed, final, read, added, rfl⟩ := parse_eq_ok_iff.mp parsed
  have accounts : Progress.Accounts ([] ++ placed) final :=
    addAll_run Progress.Accounts (fun held stepped => held.add stepped) [] .empty added
  exact ⟨placed, final, read, accounts, rfl, rfl⟩

/-! ### The whole trace -/

section

variable {text : List Char} {trace : Trace} (parsed : parse text = .ok trace)

include parsed

private theorem declares_iff_of_parse {before after : List Event} {event : Event}
    (split : trace.events = before ++ event :: after) :
    event.declares = true ↔ ∀ earlier ∈ before, earlier.record.uid ≠ event.record.uid := by
  have wellFormed := parse_wellFormed parsed
  have fresh := wellFormed.fresh
  rw [split] at fresh
  obtain ⟨-, later, apart⟩ := List.pairwise_append.mp fresh
  constructor
  · intro declares earlier member
    exact apart earlier member event List.mem_cons_self declares
  · intro first
    -- some event declares the transaction; it is not before, and none behind may declare it
    obtain ⟨entry, member, same⟩ := wellFormed.known event (split ▸ List.mem_append_cons_self)
    have recorded := List.mem_map_of_mem (f := Declared.record) member
    rw [← parse_declarations parsed] at recorded
    obtain ⟨declaring, among, equal⟩ := List.mem_map.mp recorded
    obtain ⟨among, declares⟩ := List.mem_filter.mp among
    have uid : declaring.record.uid = event.record.uid := by rw [equal, same]
    rw [split] at among
    rcases List.mem_append.mp among with earlier | rest
    · exact absurd uid (first declaring earlier)
    · rcases List.mem_cons.mp rest with rfl | behind
      · exact declares
      · exact absurd uid.symm ((List.pairwise_cons.mp later).1 declaring behind declares)

theorem faithful_of_parse : Faithful text trace := by
  obtain ⟨placed, final, read, accounts, events, declared⟩ := parse_accounts parsed
  obtain ⟨wellFormed, told, times, -, labels, -⟩ := accounts
  rw [events, declared] at wellFormed told
  rw [events] at times
  rw [declared] at labels
  have declarations := parse_declarations parsed
  have recordAt : ∀ event ∈ trace.events, trace.recordAt event.record.uid = event.record := by
    intro event member
    obtain ⟨entry, among, same⟩ := wellFormed.known event member
    rw [← same]
    exact recordAt_of_mem wellFormed among
  exact
    { times
      lines := by
        have same : trace.events.map Event.line = placed.map Placed.line := by
          rw [← List.forall₂_eq_eq_eq, List.forall₂_map_left_iff, List.forall₂_map_right_iff]
          exact told.imp (fun _ _ said => said.line)
        rw [same]
        exact (le_line_of_statementsFrom read).1
      labels
      count := by
        have lengths := congrArg List.length declarations
        rw [List.length_map, List.length_map] at lengths
        exact lengths.symm
      numbers := by
        have uids := congrArg (List.map Transaction.uid) declarations
        rw [List.map_map, List.map_map] at uids
        exact uids.trans wellFormed.uids_eq
      declares := fun before event after split => declares_iff_of_parse parsed split
      records := by
        intro event member other among uid
        rw [← recordAt event member, uid, recordAt other among]
      told := by
        refine ⟨placed, read, standsIn_of_statements read, told.imp (fun event one said => ?_)⟩
        exact ⟨said, by rw [Trace.label?, said.entry]; rfl⟩ }

end

def readAndWrite : String :=
  "# one port\n" ++
  "@0 fw BeginRequest r cmd=read len=3 size=2\n" ++
  "\n" ++
  "@0x1 bw EndRequest r # taken at once\n" ++
  "@1 fw BeginRequest w cmd=write len=1 bytes=1\n"

theorem faithful_of_readAndWrite :
    ∃ trace, parse readAndWrite.toList = .ok trace ∧
      trace.declared.map (fun entry => entry.record.bytes) = [16, 1] ∧
      Faithful readAndWrite.toList trace := by
  have accepted : (parse readAndWrite.toList).toOption.map
      (fun trace => trace.declared.map (fun entry => entry.record.bytes)) = some [16, 1] := by
    decide +kernel
  obtain ⟨trace, parsed, bytes⟩ := exists_parse_of_toOption accepted
  exact ⟨trace, parsed, bytes, faithful_of_parse parsed⟩

end Handshake.Trace
