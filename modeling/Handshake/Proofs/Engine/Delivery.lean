import Mathlib.Data.List.Basic
import Mathlib.Data.List.Perm.Basic
import Handshake.Proofs.Engine.Chronicle
import Handshake.Proofs.Queue.Delay
set_option autoImplicit false

/-! Delivery of the delay queue. No entry is ever overdue. Entries leave in the order of their
due times and, at one due time, in the order of scheduling, each when the clock stands at its
due time; and a call of `advanceTo` that succeeds leaves exactly what is due later. -/

namespace Handshake

/-! ### What a chronicle puts on the delay queue and takes from it -/

namespace Occurrence

/-- What an occurrence puts on the delay queue, and when that is due: at the time of its
scheduling plus the delay asked for. -/
def deferred? : Occurrence → Option (Time × Deferred)
  | .scheduled time ⟨phase, txn, .after delay⟩ => some (time + delay, ⟨phase, txn, false⟩)
  | .scheduled time ⟨phase, txn, .afterSync delay⟩ => some (time + delay, ⟨phase, txn, true⟩)
  | _ => none

def departed? : Occurrence → Option Delayed
  | .left entry => some entry
  | _ => none

end Occurrence

/-- The entries that a chronicle puts on the delay queue, numbered in the order of their
scheduling behind those that were put there before. -/
def posted (number : Nat) (chronicle : List Occurrence) : List Delayed :=
  (chronicle.filterMap Occurrence.deferred?).mapIdx (fun index entry =>
    ⟨entry.2, entry.1, number + index + 1⟩)

def departed (chronicle : List Occurrence) : List Delayed :=
  chronicle.filterMap Occurrence.departed?

theorem departed_append (before after : List Occurrence) :
    departed (before ++ after) = departed before ++ departed after :=
  List.filterMap_append

theorem mem_departed_iff {chronicle : List Occurrence} {entry : Delayed} :
    entry ∈ departed chronicle ↔ .left entry ∈ chronicle := by
  rw [departed, List.mem_filterMap]
  constructor
  · rintro ⟨occurrence, member, out⟩
    cases occurrence with
    | left other =>
        cases out
        exact member
    | scheduled _ _ | reached _ | edge => cases out
  · exact fun member => ⟨.left entry, member, rfl⟩

private theorem departed_singleton_of_none {occurrence : Occurrence}
    (stays : occurrence.departed? = none) : departed [occurrence] = [] := by
  rw [departed, List.filterMap_cons_none stays, List.filterMap_nil]

theorem posted_singleton_of_none {occurrence : Occurrence} (number : Nat)
    (nothing : occurrence.deferred? = none) : posted number [occurrence] = [] := by
  rw [posted, List.filterMap_cons_none nothing, List.filterMap_nil, List.mapIdx_nil]

theorem posted_singleton_of_some {occurrence : Occurrence} (number : Nat) {due : Time}
    {deferred : Deferred} (something : occurrence.deferred? = some (due, deferred)) :
    posted number [occurrence] = [⟨deferred, due, number + 1⟩] := by
  rw [posted, List.filterMap_cons_some something, List.filterMap_nil]
  rfl

theorem posted_append (number : Nat) (before after : List Occurrence) :
    posted number (before ++ after) =
      posted number before ++ posted (number + (posted number before).length) after := by
  simp only [posted, List.filterMap_append, List.mapIdx_append, List.length_mapIdx]
  congr 2
  funext index entry
  congr 1
  omega

namespace Agenda

variable {start agenda next : Agenda} {occurrence : Occurrence} {chronicle : List Occurrence}
  {gone : List Delayed}

private theorem schedule_cases (agenda : Agenda) (request : Request) :
    (agenda.schedule request).now = agenda.now ∧
      ((Occurrence.deferred? (.scheduled agenda.now request) = none ∧
          (agenda.schedule request).delayed = agenda.delayed) ∨
        ∃ due deferred,
          Occurrence.deferred? (.scheduled agenda.now request) = some (due, deferred) ∧
            agenda.now ≤ due ∧
              (agenda.schedule request).delayed = agenda.delayed.push due deferred) := by
  obtain ⟨phase, txn, moment⟩ := request
  cases moment with
  | after delay => exact ⟨rfl, .inr ⟨_, _, rfl, Nat.le_add_right _ _, rfl⟩⟩
  | afterSync delay => exact ⟨rfl, .inr ⟨_, _, rfl, Nat.le_add_right _ _, rfl⟩⟩
  | cycles count => exact ⟨rfl, .inl ⟨rfl, rfl⟩⟩

/-- No entry is overdue, and the entries that left and those in the queue stand in the order
of leaving. -/
structure Punctual (gone : List Delayed) (agenda : Agenda) : Prop where
  ordered : (gone ++ agenda.delayed.entries).Pairwise Delayed.Precedes
  past : ∀ entry ∈ gone, entry.due ≤ agenda.now
  ahead : ∀ entry ∈ agenda.delayed.entries, agenda.now ≤ entry.due
  numbered : ∀ entry ∈ gone ++ agenda.delayed.entries, entry.sequence ≤ agenda.delayed.pushed

namespace Punctual

theorem schedule (punctual : Punctual gone agenda) (request : Request) :
    Punctual gone (agenda.schedule request) := by
  obtain ⟨still, ⟨-, same⟩ | ⟨due, deferred, -, later, pushed⟩⟩ := agenda.schedule_cases request
  · refine ⟨?_, ?_, ?_, ?_⟩
    · rw [same]
      exact punctual.ordered
    · rw [still]
      exact punctual.past
    · rw [still, same]
      exact punctual.ahead
    · rw [same]
      exact punctual.numbered
  · obtain ⟨goneOrdered, queueOrdered, before⟩ := List.pairwise_append.mp punctual.ordered
    let entry : Delayed := ⟨deferred, due, agenda.delayed.pushed + 1⟩
    have entries : (agenda.schedule request).delayed.entries =
        DelayQueue.place entry agenda.delayed.entries := by
      rw [pushed]
      rfl
    have count : (agenda.schedule request).delayed.pushed = agenda.delayed.pushed + 1 := by
      rw [pushed]
      rfl
    have members : ∀ other, other ∈ (agenda.schedule request).delayed.entries ↔
        other = entry ∨ other ∈ agenda.delayed.entries := by
      intro other
      rw [entries, (DelayQueue.place_perm entry _).mem_iff, List.mem_cons]
    refine ⟨List.pairwise_append.mpr ⟨goneOrdered, ?_, ?_⟩, ?_, ?_, ?_⟩
    · -- the new entry has the highest number, so it stands behind all that are due with it
      rw [entries]
      refine DelayQueue.pairwise_place queueOrdered (fun other member => ?_)
      exact Nat.lt_succ_of_le (punctual.numbered other (List.mem_append_right _ member))
    · -- what has left was due by now, and the new entry is not due before
      intro left leftGone other member
      rcases (members other).mp member with rfl | waiting
      · have early : left.due ≤ due := Nat.le_trans (punctual.past left leftGone) later
        have number := punctual.numbered left (List.mem_append_left _ leftGone)
        rcases Nat.lt_or_eq_of_le early with sooner | same
        · exact .inl sooner
        · exact .inr ⟨same, Nat.lt_succ_of_le number⟩
      · exact before left leftGone other waiting
    · rw [still]
      exact punctual.past
    · rw [still]
      intro other member
      rcases (members other).mp member with rfl | waiting
      · exact later
      · exact punctual.ahead other waiting
    · rw [count]
      intro other member
      rcases List.mem_append.mp member with old | queued
      · exact Nat.le_succ_of_le (punctual.numbered other (List.mem_append_left _ old))
      · rcases (members other).mp queued with rfl | waiting
        · exact Nat.le_refl _
        · exact Nat.le_succ_of_le (punctual.numbered other (List.mem_append_right _ waiting))

theorem max_now_due (punctual : Punctual gone agenda) {time : Time} {entry : Delayed}
    {rest : DelayQueue} (popped : agenda.delayed.popDue? time = some (entry, rest)) :
    max agenda.now entry.due = entry.due := by
  obtain ⟨-, entries, -⟩ := DelayQueue.popDue?_eq_some_iff.mp popped
  exact Nat.max_eq_right (punctual.ahead entry (by rw [entries]; exact List.mem_cons_self))

theorem release (punctual : Punctual gone agenda) {time : Time} {entry : Delayed}
    {rest : DelayQueue} (popped : agenda.delayed.popDue? time = some (entry, rest)) :
    Punctual (gone ++ [entry]) (agenda.release entry rest) := by
  have reached := punctual.max_now_due popped
  obtain ⟨-, entries, pushed⟩ := DelayQueue.popDue?_eq_some_iff.mp popped
  obtain ⟨ordered, past, ahead, numbered⟩ := punctual
  rw [entries] at ordered ahead numbered
  have late : agenda.now ≤ entry.due := ahead entry List.mem_cons_self
  refine ⟨?_, ?_, ?_, ?_⟩
  · rw [List.append_assoc]
    exact ordered
  · intro other member
    simp only [Agenda.release, reached]
    rcases List.mem_append.mp member with old | new
    · exact Nat.le_trans (past other old) late
    · exact Nat.le_of_eq (congrArg Delayed.due (List.mem_singleton.mp new))
  · intro other member
    simp only [Agenda.release, reached]
    exact ((List.pairwise_cons.mp (List.pairwise_append.mp ordered).2.1).1 other member).due_le
  · rw [List.append_assoc]
    simp only [Agenda.release, pushed]
    exact numbered

theorem lt_due (punctual : Punctual gone agenda) {time : Time}
    (dry : agenda.delayed.popDue? time = none) :
    ∀ entry ∈ agenda.delayed.entries, time < entry.due :=
  DelayQueue.lt_due_of_popDue?_eq_none (List.pairwise_append.mp punctual.ordered).2.1 dry

theorem reach (punctual : Punctual gone agenda) {time : Time}
    (dry : agenda.delayed.popDue? time = none) :
    Punctual gone { agenda with now := max agenda.now time } := by
  have later := punctual.lt_due dry
  refine ⟨punctual.ordered, ?_, ?_, punctual.numbered⟩
  · intro entry member
    exact Nat.le_trans (punctual.past entry member) (Nat.le_max_left _ _)
  · intro entry member
    exact Nat.max_le.mpr ⟨punctual.ahead entry member, Nat.le_of_lt (later entry member)⟩

theorem step (punctual : Punctual gone agenda) (step : Step agenda occurrence next) :
    Punctual (gone ++ departed [occurrence]) next := by
  cases step with
  | scheduled request =>
      have scheduled := punctual.schedule request
      rw [← List.append_nil gone] at scheduled
      exact scheduled
  | left time entry rest popped => exact punctual.release popped
  | reached time dry =>
      have reached := punctual.reach dry
      rw [← List.append_nil gone] at reached
      exact reached
  | edge =>
      rw [departed_singleton_of_none rfl, List.append_nil]
      exact ⟨punctual.ordered, punctual.past, punctual.ahead, punctual.numbered⟩

theorem path (punctual : Punctual gone start) (path : Path start chronicle agenda) :
    Punctual (gone ++ departed chronicle) agenda := by
  induction path with
  | nil =>
      rw [departed, List.filterMap_nil, List.append_nil]
      exact punctual
  | snoc earlier step ih =>
      rw [departed_append, ← List.append_assoc]
      exact ih.step step

end Punctual

theorem Path.conserves (path : Path start chronicle agenda) :
    (departed chronicle ++ agenda.delayed.entries).Perm
        (start.delayed.entries ++ posted start.delayed.pushed chronicle) ∧
      agenda.delayed.pushed =
        start.delayed.pushed + (posted start.delayed.pushed chronicle).length := by
  induction path with
  | nil => exact ⟨by rw [departed, posted]; simp, rfl⟩
  | @snoc before occurrence reached next earlier step ih =>
      obtain ⟨kept, count⟩ := ih
      rw [departed_append, posted_append, ← count, List.length_append, ← Nat.add_assoc, ← count]
      cases step with
      | scheduled request =>
          rw [departed_singleton_of_none rfl, List.append_nil]
          obtain ⟨-, ⟨nothing, same⟩ | ⟨due, deferred, something, -, pushed⟩⟩ :=
            reached.schedule_cases request
          · rw [posted_singleton_of_none _ nothing, same, List.append_nil]
            exact ⟨kept, rfl⟩
          · rw [posted_singleton_of_some _ something, pushed]
            refine ⟨?_, rfl⟩
            have placed := DelayQueue.place_perm
              ⟨deferred, due, reached.delayed.pushed + 1⟩ reached.delayed.entries
            have moved : (departed before ++
                  (⟨deferred, due, reached.delayed.pushed + 1⟩ :: reached.delayed.entries)).Perm
                (⟨deferred, due, reached.delayed.pushed + 1⟩ ::
                  (start.delayed.entries ++ posted start.delayed.pushed before)) :=
              List.perm_middle.trans (kept.cons _)
            rw [← List.append_assoc]
            exact ((placed.append_left _).trans moved).trans
              (List.perm_append_singleton _ _).symm
      | left time entry rest popped =>
          obtain ⟨-, entries, pushed⟩ := DelayQueue.popDue?_eq_some_iff.mp popped
          rw [posted_singleton_of_none _ rfl, List.append_nil, List.append_assoc]
          rw [entries] at kept
          exact ⟨kept, pushed⟩
      | reached time dry =>
          rw [departed_singleton_of_none rfl, posted_singleton_of_none _ rfl, List.append_nil,
            List.append_nil]
          exact ⟨kept, rfl⟩
      | edge =>
          rw [departed_singleton_of_none rfl, posted_singleton_of_none _ rfl, List.append_nil,
            List.append_nil]
          exact ⟨kept, rfl⟩

/-- Where nothing due by a time is left, what was in the queue and what was put there on the
way is divided at that time: what is due later is in the queue, and all the rest left. -/
theorem Path.divides (path : Path start chronicle agenda) {time : Time}
    (left : ∀ entry ∈ departed chronicle, entry.due ≤ time)
    (queued : ∀ entry ∈ agenda.delayed.entries, time < entry.due) :
    (departed chronicle).Perm ((start.delayed.entries ++
        posted start.delayed.pushed chronicle).filter (fun entry => entry.due ≤ time)) ∧
      agenda.delayed.entries.Perm ((start.delayed.entries ++
        posted start.delayed.pushed chronicle).filter (fun entry => time < entry.due)) := by
  have kept := path.conserves.1
  constructor
  · refine List.Perm.trans (List.Perm.of_eq ?_) (kept.filter _)
    rw [List.filter_append, List.filter_eq_self.mpr (fun entry member =>
        decide_eq_true (left entry member)),
      List.filter_eq_nil_iff.mpr (fun entry member => by
        simpa using queued entry member), List.append_nil]
  · refine List.Perm.trans (List.Perm.of_eq ?_) (kept.filter _)
    rw [List.filter_append, List.filter_eq_nil_iff.mpr (fun entry member => by
        simpa using left entry member),
      List.filter_eq_self.mpr (fun entry member => decide_eq_true (queued entry member)),
      List.nil_append]

end Agenda

/-! ### The turns of a call -/

namespace Dispatcher

variable {σ : Type} [Inhabited σ] {dispatcher : Dispatcher σ} {time : Time} {budget : Nat}
  {turn : Turn σ}

omit [Inhabited σ] in
theorem departed_scheduledIn (time : Time) (journal : List (Activity σ)) :
    departed (scheduledIn time journal) = [] := by
  simp [departed, scheduledIn, Occurrence.departed?]

theorem departed_chronicle_turn (turn : Turn σ) : departed turn.chronicle = [turn.entry] := by
  have none : departed (scheduledIn turn.dispatcher.now turn.outcome.journal) = [] :=
    departed_scheduledIn _ _
  exact congrArg (turn.entry :: ·) none

theorem departed_chronicle_advanceTo (dispatcher : Dispatcher σ) (time : Time) (budget : Nat) :
    departed (dispatcher.chronicle (.advanceTo time budget)) =
      (dispatcher.turns time budget).map Turn.entry := by
  have ofTurns : ∀ turns : List (Turn σ),
      departed (turns.flatMap Turn.chronicle) = turns.map Turn.entry := by
    intro turns
    induction turns with
    | nil => rfl
    | cons first rest ih =>
        rw [List.flatMap_cons, departed_append, departed_chronicle_turn, ih]
        rfl
  simp only [chronicle]
  rw [departed_append, ofTurns]
  cases (dispatcher.advanceTo time budget).answer <;> exact List.append_nil _

private theorem journal_advanceTo (dispatcher : Dispatcher σ) (time : Time) (budget : Nat) :
    (dispatcher.advanceTo time budget).journal =
      (dispatcher.turns time budget).flatMap (fun turn => turn.outcome.journal) := by
  induction advance time budget dispatcher with
  | dry dry =>
      rw [turns_of_turn?_eq_none dry, advanceTo_of_turn?_eq_none dry]
      rfl
  | spent due =>
      rw [advanceTo_zero_of_turn? due]
      rfl
  | failed due fails =>
      rw [turns_succ_of_error due fails, advanceTo_succ_of_error due fails, List.flatMap_cons]
      exact (List.append_nil _).symm
  | turned due done later ih =>
      rw [turns_succ_of_ok due done, advanceTo_succ_of_ok due done, List.flatMap_cons]
      exact congrArg _ ih

private theorem exists_path_of_mem_turns (member : turn ∈ dispatcher.turns time budget) :
    ∃ (chronicle : List Occurrence) (before : Dispatcher σ),
      Agenda.Path dispatcher.agenda chronicle before.agenda ∧ before.turn? time = some turn := by
  induction advance time budget dispatcher with
  | dry dry =>
      rw [turns_of_turn?_eq_none dry] at member
      cases member
  | spent due => cases member
  | failed due fails =>
      rw [turns_succ_of_error due fails] at member
      cases List.mem_singleton.mp member
      exact ⟨[], _, .nil, due⟩
  | turned due done later ih =>
      rw [turns_succ_of_ok due done] at member
      rcases List.mem_cons.mp member with rfl | behind
      · exact ⟨[], _, .nil, due⟩
      · obtain ⟨chronicle, before, path, dueThen⟩ := ih behind
        exact ⟨_, before, (path_turn due).append path, dueThen⟩

omit [Inhabited σ] in
theorem due_le_of_turn? (due : dispatcher.turn? time = some turn) : turn.entry.due ≤ time := by
  obtain ⟨rest, popped, -⟩ := turn?_eq_some_iff.mp due
  exact (DelayQueue.popDue?_eq_some_iff.mp popped).1

theorem due_le_of_mem_turns (member : turn ∈ dispatcher.turns time budget) :
    turn.entry.due ≤ time := by
  obtain ⟨chronicle, before, -, due⟩ := exists_path_of_mem_turns member
  exact due_le_of_turn? due

private theorem now_eq_due_of_mem_turns {gone : List Delayed}
    (punctual : dispatcher.agenda.Punctual gone) (member : turn ∈ dispatcher.turns time budget) :
    turn.dispatcher.now = turn.entry.due := by
  obtain ⟨chronicle, before, path, due⟩ := exists_path_of_mem_turns member
  obtain ⟨rest, popped, reached⟩ := turn?_eq_some_iff.mp due
  rw [reached]
  exact (punctual.path path).max_now_due popped

private theorem pairwise_turns {gone : List Delayed} (punctual : dispatcher.agenda.Punctual gone)
    (time : Time) (budget : Nat) :
    ((dispatcher.turns time budget).map Turn.entry).Pairwise Delayed.Precedes := by
  have after := punctual.path (path_advanceTo time budget dispatcher)
  have left := (List.pairwise_append.mp after.ordered).1
  rw [departed_chronicle_advanceTo] at left
  exact (List.pairwise_append.mp left).2.1

private theorem now_deliver (dispatcher : Dispatcher σ) (entry : Deferred) :
    (dispatcher.deliver entry).dispatcher.now = dispatcher.now := by
  unfold deliver
  split
  · rfl
  · exact (dispatcher.path_react entry.phase entry.txn).2

private theorem answer_deliver_eq_ok {entry : Deferred} {reacted : Nat}
    (done : (dispatcher.deliver entry).answer = .ok reacted) :
    reacted = if entry.sync then 0 else 1 := by
  unfold deliver at done
  split at done
  · rename_i sync
    cases done
    rw [if_pos sync]
  · rename_i sync
    rw [if_neg sync]
    cases answer : (dispatcher.react entry.phase entry.txn).answer with
    | error error => simp only [answer, Except.map, reduceCtorEq] at done
    | ok accepted =>
        simp only [answer, Except.map, Except.ok.injEq] at done
        exact done.symm

private theorem outcome_of_reaction (turn : Turn σ) (reaction : turn.entry.sync = false) :
    turn.outcome = ⟨(turn.dispatcher.react turn.entry.phase turn.entry.txn).dispatcher,
      (turn.dispatcher.react turn.entry.phase turn.entry.txn).journal,
      (turn.dispatcher.react turn.entry.phase turn.entry.txn).answer.map (fun _ => 1)⟩ := by
  rw [Turn.outcome, deliver, reaction, if_neg Bool.false_ne_true]

private theorem outcome_of_crossing (turn : Turn σ) (crossing : turn.entry.sync = true) :
    turn.outcome = ⟨{ turn.dispatcher with
      clocked := turn.dispatcher.clocked.push ⟨turn.entry.phase, turn.entry.txn, 0⟩ }, [],
      .ok 0⟩ := by
  rw [Turn.outcome, deliver, crossing, if_pos rfl]

private theorem exists_reacted_of_mem_turns {reacted : Nat}
    (done : (dispatcher.advanceTo time budget).answer = .ok reacted)
    (member : turn ∈ dispatcher.turns time budget) :
    ∃ one, turn.outcome.answer = .ok one := by
  induction advance time budget dispatcher generalizing reacted with
  | dry dry =>
      rw [turns_of_turn?_eq_none dry] at member
      cases member
  | spent due => cases member
  | failed due fails =>
      rw [advanceTo_succ_of_error due fails] at done
      cases done
  | @turned budget dispatcher first one due firstDone later ih =>
      rw [advanceTo_succ_of_ok due firstDone] at done
      rw [turns_succ_of_ok due firstDone] at member
      rcases List.mem_cons.mp member with rfl | behind
      · exact ⟨one, firstDone⟩
      · cases answer : (first.outcome.dispatcher.advanceTo time budget).answer with
        | error stop => simp only [answer, Except.map, reduceCtorEq] at done
        | ok rest => exact ih answer behind

private theorem now_outcome_of_turn? (due : dispatcher.turn? time = some turn) :
    max turn.outcome.dispatcher.now time = max dispatcher.now time := by
  obtain ⟨rest, -, reached⟩ := turn?_eq_some_iff.mp due
  have clock : turn.outcome.dispatcher.now = max dispatcher.now turn.entry.due := by
    rw [Turn.outcome, now_deliver, reached]
  rw [clock, Nat.max_assoc, Nat.max_eq_right (due_le_of_turn? due)]

private theorem dispatcher_advanceTo_of_ok {reacted : Nat}
    (done : (dispatcher.advanceTo time budget).answer = .ok reacted) :
    (dispatcher.advanceTo time budget).dispatcher =
      { ((dispatcher.turns time budget).map (fun turn => turn.outcome.dispatcher)).getLastD
          dispatcher with now := max dispatcher.now time } := by
  induction advance time budget dispatcher generalizing reacted with
  | dry dry =>
      rw [turns_of_turn?_eq_none dry, advanceTo_of_turn?_eq_none dry]
      rfl
  | spent due =>
      rw [advanceTo_zero_of_turn? due] at done
      cases done
  | failed due fails =>
      rw [advanceTo_succ_of_error due fails] at done
      cases done
  | @turned budget dispatcher turn first due turnDone later ih =>
      rw [advanceTo_succ_of_ok due turnDone] at done ⊢
      rw [turns_succ_of_ok due turnDone, List.map_cons, List.getLastD_cons]
      cases answer : (turn.outcome.dispatcher.advanceTo time budget).answer with
      | error stop => simp only [answer, Except.map, reduceCtorEq] at done
      | ok rest =>
          rw [← now_outcome_of_turn? due]
          exact ih answer

private theorem drained_of_ok {reacted : Nat}
    (done : (dispatcher.advanceTo time budget).answer = .ok reacted) :
    (dispatcher.advanceTo time budget).dispatcher.delayed.popDue? time = none ∧
      reacted = (dispatcher.turns time budget).countP (fun turn => !turn.entry.sync) := by
  induction advance time budget dispatcher generalizing reacted with
  | dry dry =>
      rw [advanceTo_of_turn?_eq_none dry] at done ⊢
      cases done
      rw [turns_of_turn?_eq_none dry]
      exact ⟨Option.map_eq_none_iff.mp dry, rfl⟩
  | spent due =>
      rw [advanceTo_zero_of_turn? due] at done
      cases done
  | failed due fails =>
      rw [advanceTo_succ_of_error due fails] at done
      cases done
  | @turned budget dispatcher turn first due turnDone later ih =>
      rw [advanceTo_succ_of_ok due turnDone] at done ⊢
      rw [turns_succ_of_ok due turnDone, List.countP_cons]
      simp only at done ⊢
      cases answer : (turn.outcome.dispatcher.advanceTo time budget).answer with
      | error stop => simp only [answer, Except.map, reduceCtorEq] at done
      | ok rest =>
          simp only [answer, Except.map, Except.ok.injEq] at done
          obtain ⟨dry, count⟩ := ih answer
          refine ⟨dry, ?_⟩
          have one := answer_deliver_eq_ok turnDone
          rw [← done, one, count, Nat.add_comm]
          cases turn.entry.sync <;> rfl

theorem advanceTo_of_ok {reacted : Nat}
    (done : (dispatcher.advanceTo time budget).answer = .ok reacted) :
    (dispatcher.advanceTo time budget).dispatcher.delayed.popDue? time = none ∧
      (dispatcher.advanceTo time budget).dispatcher.now = max dispatcher.now time ∧
        reacted = (dispatcher.turns time budget).countP (fun turn => !turn.entry.sync) := by
  obtain ⟨dry, count⟩ := drained_of_ok done
  exact ⟨dry, by rw [dispatcher_advanceTo_of_ok done], count⟩

/-! ### Every call of every run -/

/-- How a call of `advanceTo` delivers, after a run that has scheduled certain entries up to
and with this call. -/
structure Delivers (scheduled : List Delayed) (dispatcher : Dispatcher σ) (time : Time)
    (budget : Nat) : Prop where
  -- what the call does it does in its turns
  journal : (dispatcher.advanceTo time budget).journal =
    (dispatcher.turns time budget).flatMap (fun turn => turn.outcome.journal)
  -- the turn of an entry that waits for no clock edge is a reaction to it
  reacts : ∀ turn ∈ dispatcher.turns time budget, turn.entry.sync = false →
    turn.outcome = ⟨(turn.dispatcher.react turn.entry.phase turn.entry.txn).dispatcher,
      (turn.dispatcher.react turn.entry.phase turn.entry.txn).journal,
      (turn.dispatcher.react turn.entry.phase turn.entry.txn).answer.map (fun _ => 1)⟩
  -- any other entry goes over to the cycle queue, for the next edge
  crosses : ∀ turn ∈ dispatcher.turns time budget, turn.entry.sync = true →
    turn.outcome = ⟨{ turn.dispatcher with
      clocked := turn.dispatcher.clocked.push ⟨turn.entry.phase, turn.entry.txn, 0⟩ }, [], .ok 0⟩
  -- entries leave by due time and, at one due time, in the order of scheduling
  ordered : ((dispatcher.turns time budget).map Turn.entry).Pairwise Delayed.Precedes
  -- an entry is due at the time of its scheduling plus the delay asked for, and leaves then
  punctual : ∀ turn ∈ dispatcher.turns time budget,
    turn.entry ∈ scheduled ∧ turn.entry.due ≤ time ∧ turn.dispatcher.now = turn.entry.due
  -- a call that succeeds delivers all that is due by its target and nothing else, and answers how
  -- many of its turns were reactions, all of which were accepted
  complete : ∀ reacted, (dispatcher.advanceTo time budget).answer = .ok reacted →
    reacted = (dispatcher.turns time budget).countP (fun turn => !turn.entry.sync) ∧
      (∀ turn ∈ dispatcher.turns time budget, turn.entry.sync = false →
        (turn.dispatcher.react turn.entry.phase turn.entry.txn).answer = .ok ()) ∧
      (dispatcher.advanceTo time budget).dispatcher =
        { ((dispatcher.turns time budget).map (fun turn => turn.outcome.dispatcher)).getLastD
            dispatcher with now := max dispatcher.now time } ∧
      (dispatcher.advanceTo time budget).dispatcher.now = max dispatcher.now time ∧
      ((dispatcher.turns time budget).map Turn.entry).Perm
        ((dispatcher.delayed.entries ++ posted dispatcher.delayed.pushed
          (dispatcher.chronicle (.advanceTo time budget))).filter (fun entry => entry.due ≤ time)) ∧
      (dispatcher.advanceTo time budget).dispatcher.delayed.entries.Perm
        ((dispatcher.delayed.entries ++ posted dispatcher.delayed.pushed
          (dispatcher.chronicle (.advanceTo time budget))).filter (fun entry => time < entry.due))

omit [Inhabited σ] in
theorem punctual_new (config : EngineConfig) (wiring : HandleId → CallbackTable σ) :
    (new config wiring).agenda.Punctual [] where
  ordered := .nil
  past := by intro entry member; cases member
  ahead := by intro entry member; cases member
  numbered := by intro entry member; cases member

private theorem delivers {start : Agenda} {before : List Occurrence}
    (path : Agenda.Path start before dispatcher.agenda) (punctual : start.Punctual [])
    (fresh : start.delayed = .empty) (time : Time) (budget : Nat) :
    Delivers (posted 0 (before ++ dispatcher.chronicle (.advanceTo time budget))) dispatcher time
      budget := by
  have reached := punctual.path path
  have call := path_advanceTo time budget dispatcher
  refine ⟨journal_advanceTo dispatcher time budget, ?_, ?_, pairwise_turns reached time budget,
    ?_, ?_⟩
  · intro turn member reaction
    exact outcome_of_reaction turn reaction
  · intro turn member crossing
    exact outcome_of_crossing turn crossing
  · intro turn member
    refine ⟨?_, due_le_of_mem_turns member, now_eq_due_of_mem_turns reached member⟩
    have all := (path.append call).conserves.1
    rw [fresh, departed_append, departed_chronicle_advanceTo] at all
    have left : turn.entry ∈ (dispatcher.turns time budget).map Turn.entry :=
      List.mem_map_of_mem member
    exact all.subset (List.mem_append_left _ (List.mem_append_right _ left))
  · intro reacted done
    obtain ⟨dry, now, count⟩ := advanceTo_of_ok done
    have early : ∀ entry ∈ departed (dispatcher.chronicle (.advanceTo time budget)),
        entry.due ≤ time := by
      intro entry member
      rw [departed_chronicle_advanceTo] at member
      obtain ⟨turn, taken, rfl⟩ := List.mem_map.mp member
      exact due_le_of_mem_turns taken
    have divided := call.divides early ((reached.path call).lt_due dry)
    rw [departed_chronicle_advanceTo] at divided
    refine ⟨count, fun turn member reaction => ?_, dispatcher_advanceTo_of_ok done, now, divided⟩
    obtain ⟨one, turnDone⟩ := exists_reacted_of_mem_turns done member
    rw [outcome_of_reaction turn reaction] at turnDone
    cases answer : (turn.dispatcher.react turn.entry.phase turn.entry.txn).answer with
    | error error => simp only [answer, Except.map, reduceCtorEq] at turnDone
    | ok accepted => rfl

/-- After every run of calls, failed ones among them, no entry of the delay queue is overdue,
and every call of `advanceTo` delivers each entry at its due time and in order. -/
theorem performAll_new_delivers (config : EngineConfig) (wiring : HandleId → CallbackTable σ)
    (operations : List Operation) :
    (∀ entry ∈ ((new config wiring).performAll operations).delayed.entries,
        ((new config wiring).performAll operations).now ≤ entry.due) ∧
      ∀ time budget, Delivers
        (posted 0 ((new config wiring).chronicleAll (operations ++ [.advanceTo time budget])))
        ((new config wiring).performAll operations) time budget := by
  have path := (new config wiring).path_performAll operations
  have punctual := punctual_new config wiring
  refine ⟨(punctual.path path).ahead, fun time budget => ?_⟩
  rw [chronicleAll_append, chronicleAll, chronicleAll, List.append_nil]
  exact delivers path punctual rfl time budget

end Dispatcher

end Handshake
