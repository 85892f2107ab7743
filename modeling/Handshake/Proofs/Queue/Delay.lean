import Mathlib.Data.List.Basic
import Mathlib.Data.List.Perm.Basic
import Handshake.Queue.Delay
set_option autoImplicit false

/-! The order of leaving of the delay queue. It is strict because no two entries have one number; so
whatever was pushed and popped before, the entry that leaves is the least by due time and, at one
due time, the earliest pushed. -/

namespace Handshake

/-! ### The order of leaving -/

/-- The order of leaving: by due time and, at one due time, in the order of scheduling. -/
def Delayed.Precedes (earlier later : Delayed) : Prop :=
  earlier.due < later.due ∨ (earlier.due = later.due ∧ earlier.sequence < later.sequence)

theorem Delayed.Precedes.due_le {earlier later : Delayed} (before : earlier.Precedes later) :
    earlier.due ≤ later.due := by
  rcases before with due | ⟨same, -⟩
  · exact Nat.le_of_lt due
  · exact Nat.le_of_eq same

theorem Delayed.Precedes.ne {earlier later : Delayed} (before : earlier.Precedes later) :
    earlier ≠ later := by
  rintro rfl
  rcases before with due | ⟨-, order⟩
  · exact Nat.lt_irrefl _ due
  · exact Nat.lt_irrefl _ order

theorem Delayed.Precedes.due_lt {earlier later : Delayed} (before : earlier.Precedes later)
    (pushed : later.sequence < earlier.sequence) : earlier.due < later.due := by
  rcases before with due | ⟨-, order⟩
  · exact due
  · exact absurd order (Nat.not_lt_of_gt pushed)

def Delayed.arrival (entry : Delayed) : Time × Deferred := (entry.due, entry.toDeferred)

namespace DelayQueue

variable {queue rest : DelayQueue} {time : Time} {entry : Delayed}

theorem popDue?_eq_some_iff :
    queue.popDue? time = some (entry, rest) ↔
      entry.due ≤ time ∧ queue.entries = entry :: rest.entries ∧ rest.pushed = queue.pushed := by
  obtain ⟨entries, pushed⟩ := queue
  obtain ⟨kept, count⟩ := rest
  cases entries with
  | nil => simp [popDue?]
  | cons head tail =>
      by_cases due : head.due ≤ time
      · simp only [popDue?, if_pos due, Option.some.injEq, Prod.mk.injEq, mk.injEq,
          List.cons.injEq]
        constructor
        · rintro ⟨rfl, rfl, rfl⟩
          exact ⟨due, ⟨rfl, rfl⟩, rfl⟩
        · rintro ⟨-, ⟨rfl, rfl⟩, rfl⟩
          exact ⟨rfl, rfl, rfl⟩
      · simp only [popDue?, if_neg due, reduceCtorEq, false_iff]
        rintro ⟨early, same, -⟩
        cases same
        exact due early

/-- Nothing is due by a time only if nothing in the queue is. -/
theorem lt_due_of_popDue?_eq_none (sorted : queue.entries.Pairwise Delayed.Precedes)
    (dry : queue.popDue? time = none) : ∀ entry ∈ queue.entries, time < entry.due := by
  obtain ⟨entries, pushed⟩ := queue
  cases entries with
  | nil =>
      intro entry member
      cases member
  | cons head tail =>
      have late : time < head.due := by
        simpa [popDue?] using dry
      intro entry member
      rcases List.mem_cons.mp member with rfl | behind
      · exact late
      · exact Nat.lt_of_lt_of_le late ((List.pairwise_cons.mp sorted).1 entry behind).due_le

theorem pairwise_place {entries : List Delayed} (sorted : entries.Pairwise Delayed.Precedes)
    (last : ∀ other ∈ entries, other.sequence < entry.sequence) :
    (place entry entries).Pairwise Delayed.Precedes := by
  induction entries with
  | nil => exact List.pairwise_singleton _ _
  | cons head tail ih =>
      obtain ⟨first, sortedTail⟩ := List.pairwise_cons.mp sorted
      unfold place
      split
      · rename_i early
        refine List.pairwise_cons.mpr ⟨?_, sorted⟩
        intro other member
        rcases List.mem_cons.mp member with rfl | behind
        · exact .inl early
        · exact .inl (Nat.lt_of_lt_of_le early (first other behind).due_le)
      · rename_i late
        refine List.pairwise_cons.mpr
          ⟨?_, ih sortedTail (fun other member => last other (List.mem_cons_of_mem head member))⟩
        intro other member
        rcases List.mem_cons.mp ((place_perm entry tail).mem_iff.mp member) with rfl | behind
        · rcases Nat.lt_or_eq_of_le (Nat.le_of_not_lt late) with due | same
          · exact .inl due
          · exact .inr ⟨same, last head List.mem_cons_self⟩
        · exact first other behind

/-! ### Calls -/

inductive Call where
  | push (due : Time) (entry : Deferred)
  | popDue (now : Time)

def Call.pushed? : Call → Option (Time × Deferred)
  | .push due entry => some (due, entry)
  | .popDue _ => none

def perform (queue : DelayQueue) : Call → Option (Time × Deferred) × DelayQueue
  | .push due entry => (none, queue.push due entry)
  | .popDue now =>
      match queue.popDue? now with
      | none => (none, queue)
      | some (entry, rest) => (some entry.arrival, rest)

theorem perform_popDue_of_none (dry : queue.popDue? time = none) :
    queue.perform (.popDue time) = (none, queue) := by
  simp only [perform, dry]

theorem perform_popDue_of_some (popped : queue.popDue? time = some (entry, rest)) :
    queue.perform (.popDue time) = (some entry.arrival, rest) := by
  simp only [perform, popped]

def performAll (queue : DelayQueue) (calls : List Call) : DelayQueue :=
  calls.foldl (fun reached call => (reached.perform call).2) queue

def log (queue : DelayQueue) : List Call → List (Call × Option (Time × Deferred))
  | [] => []
  | call :: calls => (call, (queue.perform call).1) :: (queue.perform call).2.log calls

/-! ### Stable priority queues -/

/-- What a stable priority queue answers to a call, by what it stores before and behind the call in
the order of arrival. The entry that leaves is due before all that arrived before it and no later
than all that arrived behind it. -/
inductive Serves : List (Time × Deferred) → Call → Option (Time × Deferred) →
    List (Time × Deferred) → Prop
  | arrives (stored : List (Time × Deferred)) (due : Time) (entry : Deferred) :
      Serves stored (.push due entry) none (stored ++ [(due, entry)])
  | waits (stored : List (Time × Deferred)) (now : Time)
      (early : ∀ other ∈ stored, now < other.1) : Serves stored (.popDue now) none stored
  | leaves (before after : List (Time × Deferred)) (first : Time × Deferred) (now : Time)
      (due : first.1 ≤ now) (sooner : ∀ other ∈ before, first.1 < other.1)
      (least : ∀ other ∈ after, first.1 ≤ other.1) :
      Serves (before ++ first :: after) (.popDue now) (some first) (before ++ after)

inductive ServesAll : List (Time × Deferred) → List (Call × Option (Time × Deferred)) →
    List (Time × Deferred) → Prop
  | nil (stored : List (Time × Deferred)) : ServesAll stored [] stored
  | cons {stored middle left : List (Time × Deferred)} {call : Call}
      {answer : Option (Time × Deferred)} {calls : List (Call × Option (Time × Deferred))}
      (first : Serves stored call answer middle) (others : ServesAll middle calls left) :
      ServesAll stored ((call, answer) :: calls) left

theorem Serves.conserves {stored left : List (Time × Deferred)} {call : Call}
    {answer : Option (Time × Deferred)} (serves : Serves stored call answer left) :
    (answer.toList ++ left).Perm (stored ++ call.pushed?.toList) := by
  cases serves with
  | arrives due entry => exact List.Perm.refl _
  | waits now early => exact List.Perm.of_eq (List.append_nil _).symm
  | leaves before after first now due sooner least =>
      have moved : (first :: (before ++ after)).Perm (before ++ first :: after) :=
        List.perm_middle.symm
      exact moved.trans (List.Perm.of_eq (List.append_nil _).symm)

/-- What has left and what is still stored is what was stored or has arrived. -/
theorem ServesAll.conserves {stored left : List (Time × Deferred)}
    {calls : List (Call × Option (Time × Deferred))} (serves : ServesAll stored calls left) :
    (calls.filterMap Prod.snd ++ left).Perm
      (stored ++ (calls.map Prod.fst).filterMap Call.pushed?) := by
  induction serves with
  | nil stored => exact List.Perm.of_eq (List.append_nil _).symm
  | @cons stored middle left call answer calls first others ih =>
      have answers : ((call, answer) :: calls).filterMap Prod.snd =
          answer.toList ++ calls.filterMap Prod.snd := by
        cases answer <;> rfl
      have arrivals : (((call, answer) :: calls).map Prod.fst).filterMap Call.pushed? =
          call.pushed?.toList ++ (calls.map Prod.fst).filterMap Call.pushed? := by
        cases call <;> rfl
      rw [answers, arrivals, List.append_assoc, ← List.append_assoc stored]
      refine (ih.append_left answer.toList).trans ?_
      rw [← List.append_assoc]
      exact first.conserves.append_right _

/-! ### The entries in the order of arrival -/

/-- A queue stores entries that arrived in a given order. -/
structure Stores (queue : DelayQueue) (arrived : List Delayed) : Prop where
  perm : arrived.Perm queue.entries
  sorted : queue.entries.Pairwise Delayed.Precedes
  inTurn : arrived.Pairwise (fun earlier later => earlier.sequence < later.sequence)
  numbered : ∀ entry ∈ arrived, entry.sequence ≤ queue.pushed

theorem stores_empty : Stores empty [] where
  perm := List.Perm.refl _
  sorted := List.Pairwise.nil
  inTurn := List.Pairwise.nil
  numbered := List.forall_mem_nil _

namespace Stores

variable {arrived : List Delayed}

theorem push (stores : Stores queue arrived) (due : Time) (entry : Deferred) :
    Stores (queue.push due entry) (arrived ++ [⟨entry, due, queue.pushed + 1⟩]) where
  perm := by
    refine List.Perm.trans ?_ (place_perm _ _).symm
    exact (List.perm_append_comm).trans (stores.perm.cons _)
  sorted := by
    refine pairwise_place stores.sorted (fun other member => ?_)
    exact Nat.lt_succ_of_le (stores.numbered other (stores.perm.mem_iff.mpr member))
  inTurn := by
    refine List.pairwise_append.mpr ⟨stores.inTurn, List.pairwise_singleton _ _, ?_⟩
    intro earlier member last same
    rw [List.mem_singleton.mp same]
    exact Nat.lt_succ_of_le (stores.numbered earlier member)
  numbered := by
    intro other member
    rcases List.mem_append.mp member with earlier | last
    · exact Nat.le_succ_of_le (stores.numbered other earlier)
    · rw [List.mem_singleton.mp last]
      exact Nat.le_refl _

theorem popDue? (stores : Stores queue arrived) (popped : queue.popDue? time = some (entry, rest)) :
    ∃ before after, arrived = before ++ entry :: after ∧ Stores rest (before ++ after) ∧
      (∀ other ∈ before, entry.due < other.due) ∧ ∀ other ∈ after, entry.due ≤ other.due := by
  obtain ⟨-, entries, pushed⟩ := popDue?_eq_some_iff.mp popped
  have perm := stores.perm
  have sorted := stores.sorted
  rw [entries] at perm sorted
  obtain ⟨first, sortedRest⟩ := List.pairwise_cons.mp sorted
  obtain ⟨before, after, rfl⟩ := List.append_of_mem (perm.mem_iff.mpr List.mem_cons_self)
  have kept : (before ++ after).Perm rest.entries := (List.perm_middle.symm.trans perm).cons_inv
  have behind (other : Delayed) (member : other ∈ before ++ after) : entry.Precedes other :=
    first other (kept.mem_iff.mp member)
  obtain ⟨inBefore, inAfter, across⟩ := List.pairwise_append.mp stores.inTurn
  refine ⟨before, after, rfl, ⟨kept, sortedRest, ?_, fun other member => ?_⟩,
    fun other member => ?_, fun other member => ?_⟩
  · exact stores.inTurn.sublist ((List.sublist_cons_self entry after).append_left before)
  · rw [pushed]
    exact stores.numbered other (((List.sublist_cons_self entry after).append_left before).subset
      member)
  · exact (behind other (List.mem_append_left _ member)).due_lt
      (across other member entry List.mem_cons_self)
  · exact (behind other (List.mem_append_right _ member)).due_le

theorem lt_due (stores : Stores queue arrived) (dry : queue.popDue? time = none) :
    ∀ other ∈ arrived, time < other.due :=
  fun other member =>
    lt_due_of_popDue?_eq_none stores.sorted dry other (stores.perm.mem_iff.mp member)

theorem isSome_popDue?_iff (stores : Stores queue arrived) :
    (queue.popDue? time).isSome = true ↔ ∃ other ∈ arrived, other.due ≤ time := by
  cases popped : queue.popDue? time with
  | none =>
      refine iff_of_false Bool.false_ne_true ?_
      rintro ⟨other, member, due⟩
      exact Nat.not_lt_of_le due (stores.lt_due popped other member)
  | some found =>
      obtain ⟨entry, rest⟩ := found
      obtain ⟨before, after, rfl, -⟩ := stores.popDue? popped
      exact iff_of_true rfl ⟨entry, List.mem_append_right _ List.mem_cons_self,
        (popDue?_eq_some_iff.mp popped).1⟩

theorem nextDue?_eq_some_iff (stores : Stores queue arrived) :
    queue.nextDue? = some time ↔
      (∃ entry ∈ arrived, entry.due = time) ∧ ∀ other ∈ arrived, time ≤ other.due := by
  have perm := stores.perm
  have sorted := stores.sorted
  unfold nextDue?
  cases entries : queue.entries with
  | nil =>
      rw [entries] at perm
      rw [perm.eq_nil]
      simp
  | cons head tail =>
      rw [entries] at perm sorted
      have least : ∀ other ∈ arrived, head.due ≤ other.due := by
        intro other member
        rcases List.mem_cons.mp (perm.mem_iff.mp member) with rfl | behind
        · exact Nat.le_refl _
        · exact ((List.pairwise_cons.mp sorted).1 other behind).due_le
      have member : head ∈ arrived := perm.mem_iff.mpr List.mem_cons_self
      rw [List.head?_cons, Option.map_some, Option.some.injEq]
      constructor
      · rintro rfl
        exact ⟨⟨head, member, rfl⟩, least⟩
      · rintro ⟨⟨entry, among, rfl⟩, smallest⟩
        exact Nat.le_antisymm (least entry among) (smallest head member)

theorem serves (stores : Stores queue arrived) (call : Call) :
    ∃ left, Stores (queue.perform call).2 left ∧
      Serves (arrived.map Delayed.arrival) call (queue.perform call).1
        (left.map Delayed.arrival) := by
  cases call with
  | push due entry =>
      refine ⟨_, stores.push due entry, ?_⟩
      rw [List.map_append]
      exact .arrives _ due entry
  | popDue now =>
      cases popped : queue.popDue? now with
      | none =>
          rw [perform_popDue_of_none popped]
          refine ⟨arrived, stores, .waits _ now ?_⟩
          exact List.forall_mem_map.mpr (stores.lt_due popped)
      | some found =>
          obtain ⟨entry, rest⟩ := found
          obtain ⟨before, after, rfl, kept, sooner, least⟩ := stores.popDue? popped
          rw [perform_popDue_of_some popped]
          refine ⟨before ++ after, kept, ?_⟩
          rw [List.map_append, List.map_append]
          refine .leaves _ _ entry.arrival now (popDue?_eq_some_iff.mp popped).1 ?_ ?_
          · exact List.forall_mem_map.mpr sooner
          · exact List.forall_mem_map.mpr least

theorem servesAll (stores : Stores queue arrived) (calls : List Call) :
    ∃ left, Stores (queue.performAll calls) left ∧
      ServesAll (arrived.map Delayed.arrival) (queue.log calls) (left.map Delayed.arrival) := by
  induction calls generalizing queue arrived with
  | nil => exact ⟨arrived, stores, .nil _⟩
  | cons call calls ih =>
      obtain ⟨middle, storesMiddle, first⟩ := stores.serves call
      obtain ⟨left, storesLeft, others⟩ := ih storesMiddle
      exact ⟨left, storesLeft, .cons first others⟩

end Stores

theorem map_fst_log (queue : DelayQueue) (calls : List Call) :
    (queue.log calls).map Prod.fst = calls := by
  induction calls generalizing queue with
  | nil => rfl
  | cons call calls ih => exact congrArg (call :: ·) (ih _)

end DelayQueue

end Handshake
