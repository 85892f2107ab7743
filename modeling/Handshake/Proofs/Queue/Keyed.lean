import Handshake.Proofs.Queue.Delay
set_option autoImplicit false

/-! The delay queue is a stable priority queue, and the same as an ordered map from due times and
numbers: no number is given twice, so no binding is ever replaced, and the order of the keys is the
order of leaving. -/

namespace Handshake

/-- Keys are compared by their due times and, at one due time, by their numbers. -/
abbrev KeyedQueue.Bindings := Std.TreeMap (Time × Nat) Deferred lexOrd.compare

/-- A delay queue that is kept in an ordered map. -/
structure KeyedQueue where
  entries : KeyedQueue.Bindings
  sequence : Nat

namespace KeyedQueue

/-! ### Calls -/

def empty : KeyedQueue := ⟨∅, 0⟩

def push (queue : KeyedQueue) (due : Time) (entry : Deferred) : KeyedQueue :=
  ⟨queue.entries.insert (due, queue.sequence + 1) entry, queue.sequence + 1⟩

def nextDue? (queue : KeyedQueue) : Option Time := queue.entries.minKey?.map Prod.fst

def popDue? (queue : KeyedQueue) (now : Time) : Option ((Time × Deferred) × KeyedQueue) :=
  match queue.entries.minKey? with
  | none => none
  | some key =>
      if key.1 ≤ now then
        queue.entries[key]?.map
          (fun entry => ((key.1, entry), { queue with entries := queue.entries.erase key }))
      else none

def perform (queue : KeyedQueue) : DelayQueue.Call → Option (Time × Deferred) × KeyedQueue
  | .push due entry => (none, queue.push due entry)
  | .popDue now =>
      match queue.popDue? now with
      | none => (none, queue)
      | some (arrival, rest) => (some arrival, rest)

def performAll (queue : KeyedQueue) (calls : List DelayQueue.Call) : KeyedQueue :=
  calls.foldl (fun reached call => (reached.perform call).2) queue

def log (queue : KeyedQueue) :
    List DelayQueue.Call → List (DelayQueue.Call × Option (Time × Deferred))
  | [] => []
  | call :: calls => (call, (queue.perform call).1) :: (queue.perform call).2.log calls

/-! ### Bindings in their order -/

def bindingOf (entry : Delayed) : (Time × Nat) × Deferred :=
  ((entry.due, entry.sequence), entry.toDeferred)

private theorem compare_bindingOf_iff (earlier later : Delayed) :
    lexOrd.compare (bindingOf earlier).1 (bindingOf later).1 = .lt ↔ earlier.Precedes later := by
  change (compare earlier.due later.due).then (compare earlier.sequence later.sequence) = .lt ↔ _
  rw [Ordering.then_eq_lt, Nat.compare_eq_lt, Nat.compare_eq_eq, Nat.compare_eq_lt]
  rfl

private theorem pairwise_bindingOf_iff {entries : List Delayed} :
    (entries.map bindingOf).Pairwise (fun one other => lexOrd.compare one.1 other.1 = .lt) ↔
      entries.Pairwise Delayed.Precedes := by
  simp only [List.pairwise_map, compare_bindingOf_iff]

section

variable {map : Bindings} {key : Time × Nat} {entry : Deferred}
  {bindings behind : List ((Time × Nat) × Deferred)}

private theorem nodup_of_sorted
    (sorted : bindings.Pairwise (fun one other => lexOrd.compare one.1 other.1 = .lt)) :
    bindings.Nodup := by
  refine sorted.imp (fun before same => ?_)
  rw [same] at before
  exact Std.OrientedCmp.not_lt_of_lt before before

private theorem toList_eq_of_perm
    (sorted : bindings.Pairwise (fun one other => lexOrd.compare one.1 other.1 = .lt))
    (perm : map.toList.Perm bindings) : map.toList = bindings := by
  refine perm.eq_of_pairwise ?_ Std.TreeMap.ordered_keys_toList sorted
  intro one other _ _ before after
  exact absurd after (Std.OrientedCmp.not_lt_of_lt before)

private theorem toList_insert_perm_of_fresh (fresh : ∀ binding ∈ map.toList, binding.1 ≠ key) :
    (map.insert key entry).toList.Perm ((key, entry) :: map.toList) := by
  have kept : map.toList.filter (fun binding => decide ¬(key == binding.1) = true) =
      map.toList := by
    refine List.filter_eq_self.mpr (fun binding member => ?_)
    simpa using (fresh binding member).symm
  exact Std.TreeMap.toList_insert_perm.trans (List.Perm.of_eq (by rw [kept]))

private theorem getElem?_of_toList (listed : map.toList = (key, entry) :: behind) :
    map[key]? = some entry := by
  rw [← Std.TreeMap.mem_toList_iff_getElem?_eq_some, listed]
  exact List.mem_cons_self

private theorem toList_erase (listed : map.toList = (key, entry) :: behind) :
    (map.erase key).toList = behind := by
  have ordered := Std.TreeMap.ordered_keys_toList (t := map)
  rw [listed, List.pairwise_cons] at ordered
  obtain ⟨first, sorted⟩ := ordered
  refine toList_eq_of_perm sorted ?_
  rw [List.perm_ext_iff_of_nodup (nodup_of_sorted Std.TreeMap.ordered_keys_toList)
    (nodup_of_sorted sorted)]
  rintro ⟨other, value⟩
  rw [Std.TreeMap.mem_toList_iff_getElem?_eq_some, Std.TreeMap.getElem?_erase]
  constructor
  · intro found
    split at found
    · cases found
    · rename_i apart
      rw [← Std.TreeMap.mem_toList_iff_getElem?_eq_some, listed] at found
      rcases List.mem_cons.mp found with same | member
      · cases same
        exact absurd Std.ReflCmp.compare_self apart
      · exact member
  · intro member
    rw [if_neg (by rw [first _ member]; decide), ← Std.TreeMap.mem_toList_iff_getElem?_eq_some,
      listed]
    exact List.mem_cons_of_mem _ member

end

/-! ### The queue that a map represents -/

structure Represents (keyed : KeyedQueue) (queue : DelayQueue) : Prop where
  toList : keyed.entries.toList = queue.entries.map bindingOf
  sequence : keyed.sequence = queue.pushed

private theorem represents_empty : Represents empty DelayQueue.empty where
  toList := rfl
  sequence := rfl

namespace Represents

variable {keyed : KeyedQueue} {queue : DelayQueue} {arrived : List Delayed}

theorem push (represents : Represents keyed queue) (stores : DelayQueue.Stores queue arrived)
    (due : Time) (entry : Deferred) : Represents (keyed.push due entry) (queue.push due entry) where
  toList := by
    have sorted := (stores.push due entry).sorted
    refine toList_eq_of_perm (pairwise_bindingOf_iff.mpr sorted) ?_
    have fresh : ∀ binding ∈ keyed.entries.toList, binding.1 ≠ (due, keyed.sequence + 1) := by
      rw [represents.toList, represents.sequence]
      refine List.forall_mem_map.mpr (fun other member same => ?_)
      have numbered := stores.numbered other (stores.perm.mem_iff.mpr member)
      exact absurd (congrArg Prod.snd same) (Nat.ne_of_lt (Nat.lt_succ_of_le numbered))
    refine (toList_insert_perm_of_fresh fresh).trans ?_
    rw [represents.toList, represents.sequence]
    exact ((DelayQueue.place_perm ⟨entry, due, queue.pushed + 1⟩ queue.entries).map bindingOf).symm
  sequence := congrArg (· + 1) represents.sequence

theorem minKey?_eq (represents : Represents keyed queue) :
    keyed.entries.minKey? = queue.entries.head?.map (fun entry => (entry.due, entry.sequence)) := by
  rw [Std.TreeMap.minKey?_eq_head?_keys, ← Std.TreeMap.map_fst_toList_eq_keys, represents.toList]
  cases queue.entries <;> rfl

theorem nextDue?_eq (represents : Represents keyed queue) : keyed.nextDue? = queue.nextDue? := by
  rw [nextDue?, DelayQueue.nextDue?, represents.minKey?_eq, Option.map_map]
  rfl

theorem size_eq (represents : Represents keyed queue) : keyed.entries.size = queue.size := by
  rw [← Std.TreeMap.length_toList, represents.toList, List.length_map]
  rfl

theorem popDue?_of_none (represents : Represents keyed queue) {now : Time}
    (dry : queue.popDue? now = none) : keyed.popDue? now = none := by
  rw [popDue?, represents.minKey?_eq]
  unfold DelayQueue.popDue? at dry
  cases entries : queue.entries with
  | nil => rfl
  | cons head tail =>
      rw [entries] at dry
      have late : ¬ head.due ≤ now := fun due => by simp [due] at dry
      exact if_neg late

theorem popDue?_of_some (represents : Represents keyed queue) {now : Time} {entry : Delayed}
    {rest : DelayQueue} (popped : queue.popDue? now = some (entry, rest)) :
    ∃ left, keyed.popDue? now = some (entry.arrival, left) ∧ Represents left rest := by
  obtain ⟨due, entries, pushed⟩ := DelayQueue.popDue?_eq_some_iff.mp popped
  have listed := represents.toList
  rw [entries] at listed
  refine ⟨⟨keyed.entries.erase (entry.due, entry.sequence), keyed.sequence⟩, ?_,
    toList_erase listed, represents.sequence.trans pushed.symm⟩
  rw [popDue?, represents.minKey?_eq, entries]
  simp only [List.head?_cons, Option.map_some, if_pos due, getElem?_of_toList listed]
  rfl

theorem perform (represents : Represents keyed queue) (stores : DelayQueue.Stores queue arrived)
    (call : DelayQueue.Call) :
    (keyed.perform call).1 = (queue.perform call).1 ∧
      Represents (keyed.perform call).2 (queue.perform call).2 := by
  cases call with
  | push due entry => exact ⟨rfl, represents.push stores due entry⟩
  | popDue now =>
      cases popped : queue.popDue? now with
      | none =>
          rw [DelayQueue.perform_popDue_of_none popped]
          simp only [KeyedQueue.perform, represents.popDue?_of_none popped]
          exact ⟨trivial, represents⟩
      | some found =>
          obtain ⟨entry, rest⟩ := found
          obtain ⟨left, same, kept⟩ := represents.popDue?_of_some popped
          rw [DelayQueue.perform_popDue_of_some popped]
          simp only [KeyedQueue.perform, same]
          exact ⟨trivial, kept⟩

theorem performAll (represents : Represents keyed queue)
    (stores : DelayQueue.Stores queue arrived) (calls : List DelayQueue.Call) :
    keyed.log calls = queue.log calls ∧
      Represents (keyed.performAll calls) (queue.performAll calls) := by
  induction calls generalizing keyed queue arrived with
  | nil => exact ⟨rfl, represents⟩
  | cons call calls ih =>
      obtain ⟨answered, middle⟩ := represents.perform stores call
      obtain ⟨_, storesMiddle, -⟩ := stores.serves call
      obtain ⟨logged, final⟩ := ih middle storesMiddle
      refine ⟨?_, final⟩
      rw [log, DelayQueue.log, answered, logged]

end Represents

/-- A map by due time and number answers every call as the queue does, whatever was pushed and
popped before. -/
theorem log_and_represents (calls : List DelayQueue.Call) :
    empty.log calls = DelayQueue.empty.log calls ∧
      Represents (empty.performAll calls) (DelayQueue.empty.performAll calls) :=
  represents_empty.performAll DelayQueue.stores_empty calls

end KeyedQueue

namespace DelayQueue

/-- Whatever is pushed and asked for, and in whatever order, every call is served as by a stable
priority queue. Behind the calls each pushed entry has either left, once, or is stored; the queue
gives an entry exactly if a stored one is due, tells the least due time stored, and holds as many
entries as were pushed and have not left. A map by due time and number answers and tells the
same. -/
theorem servesAll_log_empty (calls : List Call) :
    (∃ stored : List (Time × Deferred),
      ServesAll [] (empty.log calls) stored ∧
      ((empty.log calls).filterMap Prod.snd ++ stored).Perm (calls.filterMap Call.pushed?) ∧
      (∀ now, ((empty.performAll calls).popDue? now).isSome = true ↔
        ∃ other ∈ stored, other.1 ≤ now) ∧
      (∀ due, (empty.performAll calls).nextDue? = some due ↔
        (∃ other ∈ stored, other.1 = due) ∧ ∀ other ∈ stored, due ≤ other.1) ∧
      (empty.performAll calls).size + ((empty.log calls).filterMap Prod.snd).length =
        (calls.filterMap Call.pushed?).length) ∧
    KeyedQueue.empty.log calls = empty.log calls ∧
    (KeyedQueue.empty.performAll calls).nextDue? = (empty.performAll calls).nextDue? ∧
    (KeyedQueue.empty.performAll calls).entries.size = (empty.performAll calls).size := by
  obtain ⟨sameLog, represents⟩ := KeyedQueue.log_and_represents calls
  refine ⟨?_, sameLog, represents.nextDue?_eq, represents.size_eq⟩
  obtain ⟨left, stores, served⟩ := stores_empty.servesAll calls
  have conserved := served.conserves
  rw [map_fst_log] at conserved
  refine ⟨left.map Delayed.arrival, served, conserved, fun now => ?_, fun due => ?_, ?_⟩
  · rw [stores.isSome_popDue?_iff]
    simp only [List.mem_map, exists_exists_and_eq_and, Delayed.arrival]
  · rw [stores.nextDue?_eq_some_iff]
    simp only [List.mem_map, exists_exists_and_eq_and, forall_exists_index, and_imp,
      forall_apply_eq_imp_iff₂, Delayed.arrival]
  · have size : (empty.performAll calls).size = left.length := stores.perm.length_eq.symm
    have lengths := conserved.length_eq
    rw [List.length_append, List.length_map, List.map_nil, List.nil_append] at lengths
    omega

example :
    ((empty.log [.push 20 ⟨.endRequest, ⟨1⟩, false⟩, .push 10 ⟨.endRequest, ⟨2⟩, false⟩,
      .push 10 ⟨.endRequest, ⟨3⟩, false⟩, .popDue 5, .popDue 30, .popDue 30,
      .popDue 30]).filterMap Prod.snd).map (fun left => left.2.txn) = [⟨2⟩, ⟨3⟩, ⟨1⟩] := by
  decide

end DelayQueue

end Handshake
