import Mathlib.Data.List.Basic
import Mathlib.Data.List.Induction
import Handshake.Config
import Handshake.Proofs.Course
import Handshake.Transaction.Record
set_option autoImplicit false

/-! The lifetime of a transaction that is served to its end: as many request and response
beats as its length field announces, and an acknowledgment where one is owed. A
transaction that has come to some point of its lifetime stands where its course leads. -/

namespace Handshake

def beatsInRow (count : Nat) (beat : List Phase) : List Phase :=
  (List.replicate count beat).flatten

theorem beatsInRow_succ (count : Nat) (beat : List Phase) :
    beatsInRow (count + 1) beat = beat ++ beatsInRow count beat := rfl

theorem mem_of_mem_beatsInRow {count : Nat} {beat : List Phase} {phase : Phase}
    (member : phase ∈ beatsInRow count beat) : phase ∈ beat := by
  obtain ⟨copy, among, inside⟩ := List.mem_flatten.mp member
  rw [List.eq_of_mem_replicate among] at inside
  exact inside

namespace Transaction

/-- The request beats before the last one; only a write has any. -/
def earlyRequests (txn : Transaction) : Nat := if txn.isWrite then txn.length else 0

/-- The response beats before the last one; only a read has any. -/
def earlyResponses (txn : Transaction) : Nat := if txn.isRead then txn.length else 0

def handshakes (txn : Transaction) : List Phase :=
  beatsInRow txn.earlyRequests [.beginPartialRequest, .endPartialRequest] ++
    [.beginRequest, .endRequest] ++
      beatsInRow txn.earlyResponses [.beginPartialResponse, .endPartialResponse] ++
        [.beginResponse, .endResponse]

def lifetime (config : CheckerConfig) (txn : Transaction) : List Phase :=
  txn.handshakes ++ if config.ace ∧ ¬ txn.snoopOnly then [.acknowledge] else []

def requesting (txn : Transaction) : List Phase :=
  beatsInRow txn.earlyRequests [.beginPartialRequest, .endPartialRequest] ++ [.beginRequest]

def responding (txn : Transaction) : List Phase :=
  beatsInRow txn.earlyResponses [.beginPartialResponse, .endPartialResponse] ++ [.beginResponse]

theorem handshakes_eq (txn : Transaction) :
    txn.handshakes = txn.requesting ++ .endRequest :: (txn.responding ++ [.endResponse]) := by
  simp [handshakes, requesting, responding]

variable {txn : Transaction} {phase : Phase}

theorem mem_requesting (member : phase ∈ txn.requesting) :
    phase.isRequest = true ∧ phase ≠ .endRequest := by
  rcases List.mem_append.mp member with early | last
  · have inBeat := mem_of_mem_beatsInRow early
    simp only [List.mem_cons, List.not_mem_nil, or_false] at inBeat
    rcases inBeat with rfl | rfl <;> decide
  · rw [List.mem_singleton.mp last]
    decide

theorem mem_responding (member : phase ∈ txn.responding) :
    phase.isResponse = true ∧ phase ≠ .endResponse := by
  rcases List.mem_append.mp member with early | last
  · have inBeat := mem_of_mem_beatsInRow early
    simp only [List.mem_cons, List.not_mem_nil, or_false] at inBeat
    rcases inBeat with rfl | rfl <;> decide
  · rw [List.mem_singleton.mp last]
    decide

theorem isHandshake_of_mem_handshakes (member : phase ∈ txn.handshakes) :
    phase.isHandshake = true := by
  rw [handshakes_eq, List.mem_append, List.mem_cons, List.mem_append, List.mem_singleton] at member
  rw [Phase.isHandshake, Bool.or_eq_true]
  rcases member with inside | rfl | inside | rfl
  · exact .inl (mem_requesting inside).1
  · exact .inl rfl
  · exact .inr (mem_responding inside).1
  · exact .inr rfl

theorem filter_lifetime (config : CheckerConfig) (txn : Transaction) :
    (txn.lifetime config).filter Phase.isHandshake = txn.handshakes := by
  have kept : txn.handshakes.filter Phase.isHandshake = txn.handshakes :=
    List.filter_eq_self.mpr (fun phase member => isHandshake_of_mem_handshakes member)
  unfold lifetime
  rw [List.filter_append, kept]
  split <;> simp [Phase.isHandshake, Phase.isRequest, Phase.isResponse]

theorem isWrite_of_mem_handshakes (member : .beginPartialRequest ∈ txn.handshakes) :
    txn.isWrite = true := by
  cases write : txn.isWrite with
  | true => rfl
  | false =>
      rw [handshakes_eq, List.mem_append, List.mem_cons, List.mem_append] at member
      rcases member with inside | equal | inside | last
      · simp [requesting, earlyRequests, write, beatsInRow] at inside
      · cases equal
      · cases (mem_responding inside).1
      · simp at last

theorem isRead_of_mem_handshakes (member : .beginPartialResponse ∈ txn.handshakes) :
    txn.isRead = true := by
  cases read : txn.isRead with
  | true => rfl
  | false =>
      rw [handshakes_eq, List.mem_append, List.mem_cons, List.mem_append] at member
      rcases member with inside | equal | inside | last
      · cases (mem_requesting inside).1
      · cases equal
      · simp [responding, earlyResponses, read, beatsInRow] at inside
      · simp at last

/-! ### Splitting a lifetime at an end -/

theorem split_at_endRequest {before after : List Phase}
    (split : txn.handshakes = before ++ .endRequest :: after) :
    before = txn.requesting ∧ after = txn.responding ++ [.endResponse] := by
  have outsideBefore : Phase.endRequest ∉ txn.requesting := fun member =>
    (mem_requesting member).2 rfl
  have outsideAfter : Phase.endRequest ∉ txn.responding ++ [.endResponse] := by
    intro member
    rcases List.mem_append.mp member with inside | last
    · cases (mem_responding inside).1
    · simp at last
  rw [handshakes_eq] at split
  obtain ⟨sameBefore, -, sameAfter⟩ :=
    (List.append_cons_inj_of_notMem outsideBefore outsideAfter).mp split
  exact ⟨sameBefore.symm, sameAfter.symm⟩

theorem split_at_endResponse {before after : List Phase}
    (split : txn.handshakes = before ++ .endResponse :: after) :
    before = txn.requesting ++ .endRequest :: txn.responding ∧ after = [] := by
  have outside : Phase.endResponse ∉ txn.requesting ++ .endRequest :: txn.responding := by
    intro member
    rcases List.mem_append.mp member with inside | rest
    · cases (mem_requesting inside).1
    · rcases List.mem_cons.mp rest with equal | inside
      · cases equal
      · exact (mem_responding inside).2 rfl
  rw [handshakes_eq, ← List.cons_append, ← List.append_assoc] at split
  obtain ⟨sameBefore, -, sameAfter⟩ :=
    (List.append_cons_inj_of_notMem outside (List.not_mem_nil)).mp split
  exact ⟨sameBefore.symm, sameAfter.symm⟩

theorem split_at_bare {config : CheckerConfig} {before after : List Phase}
    (split : txn.lifetime config = before ++ phase :: after)
    (bare : phase.isHandshake = false) :
    phase = .acknowledge ∧ config.ace = true ∧ txn.snoopOnly = false ∧
      before = txn.handshakes ∧ after = [] := by
  have outside : phase ∉ txn.handshakes := by
    intro member
    rw [isHandshake_of_mem_handshakes member] at bare
    cases bare
  unfold lifetime at split
  by_cases owed : config.ace = true ∧ ¬ txn.snoopOnly = true
  · rw [if_pos owed] at split
    have outsideBefore : Phase.acknowledge ∉ txn.handshakes := fun member => by
      cases isHandshake_of_mem_handshakes member
    have final : phase = .acknowledge := by
      have member : phase ∈ txn.handshakes ++ [.acknowledge] := by simp [split]
      rcases List.mem_append.mp member with inside | last
      · exact absurd inside outside
      · exact List.mem_singleton.mp last
    subst final
    obtain ⟨same, -, ends⟩ :=
      (List.append_cons_inj_of_notMem outsideBefore List.not_mem_nil).mp split
    exact ⟨rfl, owed.1, Bool.eq_false_iff.mpr owed.2, same.symm, ends.symm⟩
  · rw [if_neg owed, List.append_nil] at split
    exact absurd (by simp [split]) outside

end Transaction

/-! ### The course of a lifetime -/

namespace Course

private theorem walk_beatsInRow (place : Nat → Course) (beat : List Phase)
    (once : ∀ counted, (place counted).walk beat = some (place (counted + 1)))
    (count counted : Nat) :
    (place counted).walk (beatsInRow count beat) = some (place (counted + count)) := by
  induction count generalizing counted with
  | zero => rfl
  | succ count ih =>
      rw [beatsInRow_succ, walk_append, once, Option.bind_some, ih, Nat.add_assoc, Nat.add_comm 1]

theorem walk_requesting (txn : Transaction) :
    start.walk txn.requesting = some ⟨.request, txn.earlyRequests, 0⟩ := by
  unfold Transaction.requesting
  cases txn.earlyRequests with
  | zero => rfl
  | succ count =>
      have first : start.walk [.beginPartialRequest, .endPartialRequest] =
          some ⟨.writeIdle, 1, 0⟩ := rfl
      have later := walk_beatsInRow (fun counted => ⟨.writeIdle, counted, 0⟩)
        [.beginPartialRequest, .endPartialRequest] (fun _ => rfl) count 1
      rw [beatsInRow_succ, walk_append_singleton, walk_append, first, Option.bind_some, later,
        Nat.add_comm]
      rfl

theorem walk_responding (txn : Transaction) (requested : Nat) :
    walk ⟨.waitForResponse, requested, 0⟩ txn.responding =
      some ⟨.response, requested, txn.earlyResponses⟩ := by
  unfold Transaction.responding
  cases txn.earlyResponses with
  | zero => rfl
  | succ count =>
      have first : walk ⟨.waitForResponse, requested, 0⟩
          [.beginPartialResponse, .endPartialResponse] = some ⟨.readIdle, requested, 1⟩ := rfl
      have later := walk_beatsInRow (fun counted => ⟨.readIdle, requested, counted⟩)
        [.beginPartialResponse, .endPartialResponse] (fun _ => rfl) count 1
      rw [beatsInRow_succ, walk_append_singleton, walk_append, first, Option.bind_some,
        later, Nat.add_comm]
      rfl

theorem walk_up_to_endResponse (txn : Transaction) :
    start.walk (txn.requesting ++ .endRequest :: txn.responding) =
      some ⟨.response, txn.earlyRequests, txn.earlyResponses⟩ := by
  rw [walk_append, walk_requesting, Option.bind_some]
  exact walk_responding txn txn.earlyRequests

theorem walk_handshakes (txn : Transaction) :
    start.walk txn.handshakes = some ⟨.idle, txn.earlyRequests, txn.earlyResponses⟩ := by
  rw [Transaction.handshakes_eq, ← List.cons_append, ← List.append_assoc,
    walk_append_singleton, walk_up_to_endResponse]
  rfl

variable {txn : Transaction} {phases : List Phase} {phase : Phase} {course : Course}

theorem step_of_lifetime (alive : phases ++ [phase] <+: txn.handshakes)
    (walk : start.walk phases = some course) : ∃ next, course.step phase = some next := by
  obtain ⟨rest, split⟩ := alive
  have whole := walk_handshakes txn
  rw [← split, walk_append, walk_append_singleton, walk, Option.bind_some] at whole
  obtain ⟨next, step, -⟩ := Option.bind_eq_some_iff.mp whole
  exact ⟨next, step⟩

theorem course_of_endRequest (alive : phases ++ [.endRequest] <+: txn.handshakes)
    (walk : start.walk phases = some course) : course = ⟨.request, txn.earlyRequests, 0⟩ := by
  obtain ⟨rest, split⟩ := alive
  rw [List.append_assoc] at split
  obtain ⟨rfl, -⟩ := Transaction.split_at_endRequest split.symm
  rw [walk_requesting] at walk
  exact (Option.some.inj walk).symm

theorem course_of_endResponse (alive : phases ++ [.endResponse] <+: txn.handshakes)
    (walk : start.walk phases = some course) :
    course = ⟨.response, txn.earlyRequests, txn.earlyResponses⟩ := by
  obtain ⟨rest, split⟩ := alive
  rw [List.append_assoc] at split
  obtain ⟨rfl, -⟩ := Transaction.split_at_endResponse split.symm
  rw [walk_up_to_endResponse] at walk
  exact (Option.some.inj walk).symm

theorem not_within_request_of_mem (alive : phases <+: txn.handshakes)
    (walk : start.walk phases = some course) (ended : .endRequest ∈ phases) :
    course.state.within .request = false := by
  obtain ⟨before, after, rfl⟩ := List.append_of_mem ended
  obtain ⟨rest, split⟩ := alive
  rw [List.append_assoc, List.cons_append] at split
  obtain ⟨-, later⟩ := Transaction.split_at_endRequest split.symm
  rcases List.eq_nil_or_concat after with rfl | ⟨middle, last, rfl⟩
  · rw [walk_append_singleton] at walk
    obtain ⟨reached, -, step⟩ := Option.bind_eq_some_iff.mp walk
    rw [within_request_step step]
    rfl
  · have response : last.isRequest = false := by
      have member : last ∈ txn.responding ++ [.endResponse] := by
        rw [← later]
        simp
      rcases List.mem_append.mp member with inside | equal
      · exact Phase.isRequest_of_isResponse (Transaction.mem_responding inside).1
      · rw [List.mem_singleton.mp equal]
        rfl
    rw [List.concat_eq_append, ← List.cons_append, ← List.append_assoc,
      walk_append_singleton] at walk
    obtain ⟨reached, -, step⟩ := Option.bind_eq_some_iff.mp walk
    rw [within_request_step step, response, Bool.false_and]

theorem not_isAccepted_of_mem (alive : phases <+: txn.handshakes)
    (walk : start.walk phases = some course) (ended : .endResponse ∈ phases) :
    course.state.isAccepted = false := by
  obtain ⟨before, after, rfl⟩ := List.append_of_mem ended
  obtain ⟨rest, split⟩ := alive
  rw [List.append_assoc, List.cons_append] at split
  obtain ⟨-, later⟩ := Transaction.split_at_endResponse split.symm
  obtain ⟨rfl, -⟩ := List.append_eq_nil_iff.mp later
  rw [walk_append_singleton] at walk
  obtain ⟨reached, -, step⟩ := Option.bind_eq_some_iff.mp walk
  rw [(isAccepted_step step).2]
  rfl

theorem isRequest_of_waitForResponse (alive : phases <+: txn.handshakes)
    (walk : start.walk phases = some course) (waits : course.state = .waitForResponse) :
    ∀ seen ∈ phases, seen.isResponse = false := by
  rcases eq_start_or_exists_step walk with ⟨rfl, -⟩ | ⟨before, last, reached, rfl, -, step⟩
  · intro seen member
    cases member
  · obtain rfl := endRequest_of_waitForResponse step waits
    obtain ⟨rest, split⟩ := alive
    rw [List.append_assoc] at split
    obtain ⟨rfl, -⟩ := Transaction.split_at_endRequest split.symm
    intro seen member
    rcases List.mem_append.mp member with inside | equal
    · exact Phase.isResponse_of_isRequest (Transaction.mem_requesting inside).1
    · rw [List.mem_singleton.mp equal]
      rfl

end Course

end Handshake
