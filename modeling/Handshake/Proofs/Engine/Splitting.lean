import Handshake.Engine.Action
import Handshake.Proofs.Engine.Delivery
set_option autoImplicit false

/-! Moving time in portions. A call of `advanceTo` is bounded by a budget; one that ends within
its budget is the same with every larger one, so it has one outcome. Moving time to one point
and then on to another has the outcome of moving it to the second point at once: the entries
that leave on the way are the same, each when the clock stands at its due time, and a call that
fails on the first portion fails in the same place on the whole way. -/

namespace Handshake

/-! ### Calls in turn -/

section

variable {σ α β γ : Type}

/-- A call, and after it another that is told its answer, unless the first was stopped. -/
def Outcome.andThen (early : Outcome σ (Except Stop α))
    (later : α → Dispatcher σ → Outcome σ (Except Stop β)) : Outcome σ (Except Stop β) :=
  match early.answer with
  | .error stop => ⟨early.dispatcher, early.journal, .error stop⟩
  | .ok value =>
      ⟨(later value early.dispatcher).dispatcher,
        early.journal ++ (later value early.dispatcher).journal,
        (later value early.dispatcher).answer⟩

def Dispatcher.done (dispatcher : Dispatcher σ) : Outcome σ (Except Stop Unit) :=
  ⟨dispatcher, [], .ok ()⟩

namespace Outcome

variable {early : Outcome σ (Except Stop α)}
  {later : α → Dispatcher σ → Outcome σ (Except Stop β)}

theorem andThen_of_ok {value : α} (done : early.answer = .ok value) :
    early.andThen later =
      ⟨(later value early.dispatcher).dispatcher,
        early.journal ++ (later value early.dispatcher).journal,
        (later value early.dispatcher).answer⟩ := by
  simp only [andThen, done]

theorem andThen_of_error {stop : Stop} (stopped : early.answer = .error stop) :
    early.andThen later = ⟨early.dispatcher, early.journal, .error stop⟩ := by
  simp only [andThen, stopped]

theorem answer_andThen_eq_ok_iff {result : β} :
    (early.andThen later).answer = .ok result ↔
      ∃ value, early.answer = .ok value ∧
        (later value early.dispatcher).answer = .ok result := by
  cases answer : early.answer with
  | error stop => simp [andThen_of_error answer]
  | ok value => simp [andThen_of_ok answer]

theorem andThen_congr {other : α → Dispatcher σ → Outcome σ (Except Stop β)}
    (same : ∀ value, early.answer = .ok value →
      later value early.dispatcher = other value early.dispatcher) :
    early.andThen later = early.andThen other := by
  cases answer : early.answer with
  | error stop => rw [andThen_of_error answer, andThen_of_error answer]
  | ok value => rw [andThen_of_ok answer, andThen_of_ok answer, same value answer]

theorem andThen_assoc (last : β → Dispatcher σ → Outcome σ (Except Stop γ)) :
    (early.andThen later).andThen last =
      early.andThen (fun value reached => (later value reached).andThen last) := by
  cases first : early.answer with
  | error stop =>
      rw [andThen_of_error first, andThen_of_error first]
      rfl
  | ok value =>
      rw [andThen_of_ok first, andThen_of_ok first]
      cases second : (later value early.dispatcher).answer with
      | error stop =>
          rw [andThen_of_error rfl, andThen_of_error second]
      | ok result =>
          rw [andThen_of_ok rfl, andThen_of_ok second, List.append_assoc]

theorem andThen_done (outcome : Outcome σ (Except Stop Unit)) :
    outcome.andThen (fun _ reached => reached.done) = outcome := by
  obtain ⟨dispatcher, journal, answer⟩ := outcome
  cases answer with
  | error stop => rfl
  | ok value => rw [andThen_of_ok rfl, Dispatcher.done, List.append_nil]

end Outcome

/-- A bounded call ends in an outcome if it has that outcome with every budget from some budget
on, and has not just run out of it. -/
structure EndsIn (call : Nat → Outcome σ (Except Stop α)) (outcome : Outcome σ (Except Stop α)) :
    Prop where
  finished : outcome.answer ≠ .error .unfinished
  settled : ∃ enough, ∀ budget, enough ≤ budget → call budget = outcome

end

namespace Dispatcher

variable {σ : Type} [Inhabited σ] {dispatcher : Dispatcher σ} {time first second : Time}
  {budget : Nat} {turn : Turn σ} {outcome : Outcome σ (Except Stop Nat)}

/-! ### One outcome -/

theorem map_eq_unfinished_iff {α β : Type} {answer : Except Stop α} {change : α → β} :
    answer.map change = .error .unfinished ↔ answer = .error .unfinished := by
  cases answer <;> simp [Except.map]

private theorem advanceTo_of_finished
    (finished : (dispatcher.advanceTo time budget).answer ≠ .error .unfinished) (more : Nat) :
    dispatcher.advanceTo time (budget + more) = dispatcher.advanceTo time budget := by
  induction advance time budget dispatcher with
  | dry dry => rw [advanceTo_of_turn?_eq_none dry, advanceTo_of_turn?_eq_none dry]
  | spent due =>
      rw [advanceTo_zero_of_turn? due] at finished
      exact absurd rfl finished
  | failed due fails =>
      rw [Nat.add_right_comm, advanceTo_succ_of_error due fails, advanceTo_succ_of_error due fails]
  | turned due done later ih =>
      rw [advanceTo_succ_of_ok due done] at finished
      rw [Nat.add_right_comm, advanceTo_succ_of_ok due done, advanceTo_succ_of_ok due done,
        ih (fun unfinished => finished (map_eq_unfinished_iff.mpr unfinished))]

theorem endsIn_advanceTo
    (finished : (dispatcher.advanceTo time budget).answer ≠ .error .unfinished) :
    EndsIn (fun budget => dispatcher.advanceTo time budget)
      (dispatcher.advanceTo time budget) := by
  refine ⟨finished, budget, fun larger enough => ?_⟩
  obtain ⟨more, rfl⟩ := Nat.exists_eq_add_of_le enough
  exact advanceTo_of_finished finished more

/-! ### The way to a later time -/

omit [Inhabited σ] in
private theorem turn?_of_le (ordered : first ≤ second) (due : dispatcher.turn? first = some turn) :
    dispatcher.turn? second = some turn := by
  obtain ⟨rest, popped, reached⟩ := turn?_eq_some_iff.mp due
  obtain ⟨early, entries, pushed⟩ := DelayQueue.popDue?_eq_some_iff.mp popped
  refine turn?_eq_some_iff.mpr ⟨rest, ?_, reached⟩
  exact DelayQueue.popDue?_eq_some_iff.mpr ⟨Nat.le_trans early ordered, entries, pushed⟩

omit [Inhabited σ] in
private theorem lt_due_of_turn? (dry : dispatcher.turn? first = none)
    (due : dispatcher.turn? second = some turn) : first < turn.entry.due := by
  obtain ⟨rest, popped, -⟩ := turn?_eq_some_iff.mp due
  obtain ⟨-, entries, pushed⟩ := DelayQueue.popDue?_eq_some_iff.mp popped
  apply Nat.lt_of_not_le
  intro early
  have leaves : dispatcher.delayed.popDue? first = some (turn.entry, rest) :=
    DelayQueue.popDue?_eq_some_iff.mpr ⟨early, entries, pushed⟩
  rw [turn?, leaves] at dry
  cases dry

omit [Inhabited σ] in
/-- Where nothing is due by a time, the clock may stand there as well: the next entry is due
later and takes it to the same point. -/
theorem turn?_withNow (dry : dispatcher.turn? first = none) (second : Time) :
    { dispatcher with now := max dispatcher.now first }.turn? second =
      dispatcher.turn? second := by
  cases due : dispatcher.turn? second with
  | none => exact Option.map_eq_none_iff.mpr (Option.map_eq_none_iff.mp due)
  | some turn =>
      have late := lt_due_of_turn? dry due
      obtain ⟨rest, popped, reached⟩ := turn?_eq_some_iff.mp due
      refine turn?_eq_some_iff.mpr ⟨rest, popped, ?_⟩
      rw [reached, Nat.max_assoc, Nat.max_eq_right (Nat.le_of_lt late)]

theorem advanceTo_withNow (dry : dispatcher.turn? first = none) (ordered : first ≤ second)
    (budget : Nat) :
    { dispatcher with now := max dispatcher.now first }.advanceTo second (budget + 1) =
      dispatcher.advanceTo second (budget + 1) := by
  have same := turn?_withNow dry second
  cases due : dispatcher.turn? second with
  | none =>
      rw [due] at same
      rw [advanceTo_of_turn?_eq_none same, advanceTo_of_turn?_eq_none due, Nat.max_assoc,
        Nat.max_eq_right ordered]
  | some turn =>
      rw [due] at same
      cases answer : turn.outcome.answer with
      | error error => rw [advanceTo_succ_of_error same answer, advanceTo_succ_of_error due answer]
      | ok reacted => rw [advanceTo_succ_of_ok same answer, advanceTo_succ_of_ok due answer]

def advanceOn (time : Time) (budget reacted : Nat) (dispatcher : Dispatcher σ) :
    Outcome σ (Except Stop Nat) :=
  ⟨(dispatcher.advanceTo time budget).dispatcher, (dispatcher.advanceTo time budget).journal,
    (dispatcher.advanceTo time budget).answer.map (reacted + ·)⟩

private theorem advanceOn_zero (time : Time) (budget : Nat) (dispatcher : Dispatcher σ) :
    advanceOn time budget 0 dispatcher = dispatcher.advanceTo time budget := by
  unfold advanceOn
  generalize dispatcher.advanceTo time budget = outcome
  obtain ⟨dispatcher, journal, answer⟩ := outcome
  cases answer with
  | error stop => rfl
  | ok reacted => simp only [Except.map, Nat.zero_add]

/-- Time is moved to one point and then, unless that was stopped, on to another. Answers the
number of phases reacted to on both portions. -/
def advanceInTurn (first second : Time) (budget : Nat) (dispatcher : Dispatcher σ) :
    Outcome σ (Except Stop Nat) :=
  (dispatcher.advanceTo first budget).andThen (advanceOn second budget)

/-- The way to a later time begins with the turns of the way to an earlier one. -/
theorem advanceTo_eq_andThen (ordered : first ≤ second)
    (finished : (dispatcher.advanceTo first budget).answer ≠ .error .unfinished) (rest : Nat) :
    dispatcher.advanceTo second ((dispatcher.turns first budget).length + (rest + 1)) =
      (dispatcher.advanceTo first budget).andThen (advanceOn second (rest + 1)) := by
  induction advance first budget dispatcher with
  | @dry budget dispatcher dry =>
      rw [turns_of_turn?_eq_none dry, advanceTo_of_turn?_eq_none dry, List.length_nil,
        Nat.zero_add, Outcome.andThen_of_ok rfl, List.nil_append, advanceOn_zero,
        advanceTo_withNow dry ordered]
  | spent due =>
      rw [advanceTo_zero_of_turn? due] at finished
      exact absurd rfl finished
  | failed due fails =>
      rw [turns_succ_of_error due fails, advanceTo_succ_of_error due fails, List.length_singleton,
        Nat.add_comm, advanceTo_succ_of_error (turn?_of_le ordered due) fails]
      rfl
  | @turned budget dispatcher turn reacted due done later ih =>
      rw [advanceTo_succ_of_ok due done] at finished ⊢
      rw [turns_succ_of_ok due done, List.length_cons, Nat.add_right_comm,
        advanceTo_succ_of_ok (turn?_of_le ordered due) done,
        ih (fun unfinished => finished (map_eq_unfinished_iff.mpr unfinished))]
      cases answer : (turn.outcome.dispatcher.advanceTo first budget).answer with
      | error stop =>
          rw [Outcome.andThen_of_error answer, Outcome.andThen_of_error rfl]
          rfl
      | ok early =>
          rw [Outcome.andThen_of_ok answer, Outcome.andThen_of_ok rfl]
          simp only [advanceOn, List.append_assoc]
          cases (Dispatcher.advanceTo second (rest + 1)
            (turn.outcome.dispatcher.advanceTo first budget).dispatcher).answer <;>
            simp [Except.map, Nat.add_assoc]

private theorem finished_of_le (ordered : first ≤ second)
    (finished : (dispatcher.advanceTo second budget).answer ≠ .error .unfinished) :
    (dispatcher.advanceTo first budget).answer ≠ .error .unfinished := by
  induction advance first budget dispatcher with
  | dry dry =>
      rw [advanceTo_of_turn?_eq_none dry]
      simp
  | spent due =>
      rw [advanceTo_zero_of_turn? (turn?_of_le ordered due)] at finished
      exact absurd rfl finished
  | failed due fails =>
      rw [advanceTo_succ_of_error due fails]
      simp
  | turned due done later ih =>
      rw [advanceTo_succ_of_ok (turn?_of_le ordered due) done] at finished
      rw [advanceTo_succ_of_ok due done]
      exact fun unfinished => ih
        (fun spent => finished (map_eq_unfinished_iff.mpr spent))
        (map_eq_unfinished_iff.mp unfinished)

private theorem finished_of_advanceInTurn
    (finished : (dispatcher.advanceInTurn first second budget).answer ≠ .error .unfinished) :
    (dispatcher.advanceTo first budget).answer ≠ .error .unfinished := by
  intro unfinished
  rw [advanceInTurn, Outcome.andThen_of_error unfinished] at finished
  exact finished rfl

/-- Moving time in two portions ends in an outcome exactly if moving it at once does: the same
dispatcher, the same journal and with it the same calls of callbacks, and the same answer, be it
the number of phases reacted to or the error. -/
theorem endsIn_advanceInTurn_iff (ordered : first ≤ second) (dispatcher : Dispatcher σ)
    (outcome : Outcome σ (Except Stop Nat)) :
    EndsIn (fun budget => dispatcher.advanceInTurn first second budget) outcome ↔
      EndsIn (fun budget => dispatcher.advanceTo second budget) outcome := by
  constructor
  · rintro ⟨finished, enough, settled⟩
    -- one more than enough, as the last look at the queue takes no budget but a turn does
    have both := settled (enough + 1) (Nat.le_succ enough)
    have bothEnd :
        (dispatcher.advanceInTurn first second (enough + 1)).answer ≠ .error .unfinished := by
      rw [both]
      exact finished
    have firstEnds := finished_of_advanceInTurn bothEnd
    have atOnce := advanceTo_eq_andThen ordered firstEnds enough
    have same : dispatcher.advanceTo second
        ((dispatcher.turns first (enough + 1)).length + (enough + 1)) = outcome :=
      atOnce.trans both
    rw [← same]
    exact endsIn_advanceTo (by rw [same]; exact finished)
  · rintro ⟨finished, enough, settled⟩
    refine ⟨finished, enough + 1, fun budget larger => ?_⟩
    obtain ⟨rest, rfl⟩ := Nat.exists_eq_add_one_of_ne_zero (Nat.ne_zero_of_lt larger)
    have whole := settled (rest + 1) (Nat.le_of_lt larger)
    have firstEnds : (dispatcher.advanceTo first (rest + 1)).answer ≠ .error .unfinished :=
      finished_of_le ordered (by rw [whole]; exact finished)
    have atOnce := advanceTo_eq_andThen ordered firstEnds rest
    exact atOnce.symm.trans (settled _ (Nat.le_add_left_of_le (Nat.le_of_lt larger)))

def begunLater : Dispatcher Nat :=
  (new {} (fun _ => CallbackTable.empty.set .beginRequest
      (Callback.ofActions [.schedule .endRequest (.after 3)]))).performAll
    [.bind (some (.plain ⟨0⟩ .read)) false, .schedule ⟨.beginRequest, ⟨0⟩, .after 2⟩]

theorem endsIn_advanceInTurn_of_begunLater :
    (2 : Time) ≤ 5 ∧ (begunLater.advanceTo 5 2).answer = .ok 2 ∧
      EndsIn (fun budget => begunLater.advanceInTurn 2 5 budget) (begunLater.advanceTo 5 2) := by
  have answer : (begunLater.advanceTo 5 2).answer = .ok 2 := rfl
  have finished : (begunLater.advanceTo 5 2).answer ≠ .error .unfinished := by
    rw [answer]
    exact nofun
  have atOnce := endsIn_advanceTo finished
  have ordered : (2 : Time) ≤ 5 := by decide
  exact ⟨ordered, answer, (endsIn_advanceInTurn_iff ordered begunLater _).mpr atOnce⟩

end Dispatcher

end Handshake
