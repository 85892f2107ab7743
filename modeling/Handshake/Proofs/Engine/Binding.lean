import Mathlib.Order.Bounds.Defs
import Mathlib.Data.List.Infix
import Handshake.Proofs.Engine.Frame
import Handshake.Proofs.Engine.Journal
set_option autoImplicit false

/-! Binding. A transaction that is active keeps its handle; any other gets a handle that
nobody has, with nothing left on it from before. Handles are wired when they are allocated,
and one is allocated only while every handle is in use: the pool is as large as the number
of transactions that were active at once has ever been. -/

namespace Handshake

namespace Activity

variable {σ : Type}

def allocated? : Activity σ → Option HandleId
  | allocated handle _ => some handle
  | _ => none

def binds : Activity σ → Bool
  | allocated _ _ | recycled _ _ => true
  | _ => false

def retires : Activity σ → Bool
  | finished _ _ => true
  | _ => false

/-- An activity that neither binds a handle nor ends a binding. -/
def IsQuiet (activity : Activity σ) : Prop :=
  activity.binds = false ∧ activity.retires = false

private theorem IsQuiet.allocated?_eq {activity : Activity σ} (quiet : activity.IsQuiet) :
    activity.allocated? = none := by
  cases activity with
  | allocated handle poolSize => cases quiet.1
  | recycled | notified | reacting | moved | called | scheduled | finished => rfl

end Activity

def inUse {σ : Type} (journal : List (Activity σ)) : Nat :=
  journal.countP Activity.binds - journal.countP Activity.retires

/-- A journal by whose end a number of transactions is bound, and in the course of which at
most a limit of them were at once, with the limit reached. -/
structure Bounded {σ : Type} (limit count : Nat) (journal : List (Activity σ)) : Prop where
  balanced : journal.countP Activity.binds = journal.countP Activity.retires + count
  within : ∀ earlier, earlier <+: journal → inUse earlier ≤ limit
  reached : ∃ earlier, earlier <+: journal ∧ inUse earlier = limit

namespace Bounded

variable {σ : Type} {limit count : Nat} {journal activities : List (Activity σ)}
  {activity : Activity σ}

private theorem inUse_eq (bounded : Bounded limit count journal) : inUse journal = count := by
  have balanced := bounded.balanced
  unfold inUse
  omega

private theorem count_le (bounded : Bounded limit count journal) : count ≤ limit := by
  have whole := bounded.within journal List.prefix_rfl
  rwa [bounded.inUse_eq] at whole

private theorem isGreatest (bounded : Bounded limit count journal) :
    IsGreatest {count | ∃ earlier, earlier <+: journal ∧ inUse earlier = count} limit := by
  refine ⟨bounded.reached, ?_⟩
  rintro count ⟨earlier, before, rfl⟩
  exact bounded.within earlier before

private theorem snoc (bounded : Bounded limit count journal) {next : Nat}
    (balanced : (journal ++ [activity]).countP Activity.binds =
      (journal ++ [activity]).countP Activity.retires + next) :
    Bounded (max limit next) next (journal ++ [activity]) := by
  have whole : inUse (journal ++ [activity]) = next := by
    unfold inUse
    omega
  refine ⟨balanced, ?_, ?_⟩
  · intro earlier before
    rcases List.prefix_concat_iff.mp before with rfl | before
    · exact whole.trans_le (Nat.le_max_right limit next)
    · exact (bounded.within earlier before).trans (Nat.le_max_left limit next)
  · rcases Nat.le_total next limit with low | high
    · obtain ⟨earlier, before, reached⟩ := bounded.reached
      rw [Nat.max_eq_left low]
      exact ⟨earlier, before.trans (List.prefix_append _ _), reached⟩
    · rw [Nat.max_eq_right high]
      exact ⟨_, List.prefix_rfl, whole⟩

private theorem bind (bounded : Bounded limit count journal) (binds : activity.binds = true)
    (keeps : activity.retires = false) :
    Bounded (max limit (count + 1)) (count + 1) (journal ++ [activity]) := by
  have balanced := bounded.balanced
  refine bounded.snoc ?_
  simp only [List.countP_append, List.countP_singleton, binds, keeps]
  simp only [if_true, Bool.false_eq_true, if_false]
  omega

private theorem quiet (bounded : Bounded limit count journal) (quiet : activity.IsQuiet) :
    Bounded limit count (journal ++ [activity]) := by
  have balanced := bounded.balanced
  have longer : Bounded (max limit count) count (journal ++ [activity]) := by
    refine bounded.snoc ?_
    simp only [List.countP_append, List.countP_singleton, quiet.1, quiet.2, Bool.false_eq_true,
      if_false]
    exact balanced
  rwa [Nat.max_eq_left bounded.count_le] at longer

private theorem retire (bounded : Bounded limit (count + 1) journal) (txn : TxnId) (id : HandleId) :
    Bounded limit count (journal ++ [.finished txn id]) := by
  have balanced := bounded.balanced
  have longer : Bounded (max limit count) count (journal ++ [.finished txn id]) := by
    refine bounded.snoc ?_
    simp only [List.countP_append, List.countP_singleton, Activity.binds, Activity.retires,
      Bool.false_eq_true, if_false, if_true]
    omega
  rwa [Nat.max_eq_left (by have := bounded.count_le; omega)] at longer

private theorem quietAll (bounded : Bounded limit count journal)
    (quiet : ∀ activity ∈ activities, activity.IsQuiet) :
    Bounded limit count (journal ++ activities) := by
  induction activities generalizing journal with
  | nil =>
      rw [List.append_nil]
      exact bounded
  | cons first rest ih =>
      have later := ih (bounded.quiet (quiet first List.mem_cons_self))
        (fun activity member => quiet activity (List.mem_cons_of_mem first member))
      rwa [List.append_assoc] at later

end Bounded

private theorem filterMap_allocated?_of_quiet {σ : Type} {activities : List (Activity σ)}
    (quiet : ∀ activity ∈ activities, activity.IsQuiet) :
    activities.filterMap Activity.allocated? = [] :=
  List.filterMap_eq_nil_iff.mpr (fun activity member => (quiet activity member).allocated?_eq)

namespace Dispatcher

variable {σ : Type}

private theorem map_callbacks_modify (handles : List (Handle σ)) (id : HandleId)
    {change : Handle σ → Handle σ} (kept : ∀ handle, (change handle).callbacks = handle.callbacks) :
    (handles.modify id change).map Handle.callbacks = handles.map Handle.callbacks := by
  refine List.ext_getElem? (fun index => ?_)
  simp only [List.getElem?_map, List.getElem?_modify]
  cases handles[index]? with
  | none => rfl
  | some handle =>
      simp only [Option.map_eq_map, Option.map_some]
      split
      · rw [kept]
      · rfl

private theorem map_callbacks_set {handles : List (Handle σ)} {id : HandleId} {old new : Handle σ}
    (present : handles[id]? = some old) (same : new.callbacks = old.callbacks) :
    (handles.set id new).map Handle.callbacks = handles.map Handle.callbacks := by
  have there : (handles.map Handle.callbacks)[id]? = some old.callbacks := by
    rw [List.getElem?_map, present]
    rfl
  refine List.ext_getElem? (fun index => ?_)
  rw [List.map_set, same, List.getElem?_set]
  split
  · rename_i here
    subst here
    rw [there, if_pos (List.getElem?_eq_some_iff.mp there).1]
  · rfl

private theorem isQuiet_of_mem_advanceMachine {dispatcher : Dispatcher σ} {txn : TxnId}
    {bound : Bound σ} {event : Phase} {next : State} {fired : List Phase}
    {activity : Activity σ}
    (member : activity ∈ (dispatcher.advanceMachine txn bound event next fired).journal) :
    activity.IsQuiet := by
  rcases mem_journal_advanceMachine member with ⟨context, rfl, -⟩ | ⟨request, rfl⟩ <;>
    exact ⟨rfl, rfl⟩

/-- The handles of a pool and how they came about, by the journal so far. -/
structure Pooled (wiring : HandleId → CallbackTable σ) (journal : List (Activity σ))
    (dispatcher : Dispatcher σ) : Prop where
  sound : ∃ bindings, Sound bindings dispatcher
  wired : dispatcher.wiring = wiring
  allocations : journal.filterMap Activity.allocated? = List.range dispatcher.handles.length
  callbacks : dispatcher.handles.map Handle.callbacks =
    (List.range dispatcher.handles.length).map wiring
  bounded : Bounded dispatcher.handles.length dispatcher.active.size journal

namespace Pooled

variable {wiring : HandleId → CallbackTable σ} {journal : List (Activity σ)}
  {dispatcher : Dispatcher σ} {txn : TxnId}

private theorem new (config : EngineConfig) (wiring : HandleId → CallbackTable σ) :
    Pooled wiring [] (.new config wiring) where
  sound := ⟨0, sound_new config wiring⟩
  wired := rfl
  allocations := rfl
  callbacks := rfl
  bounded := by
    refine ⟨rfl, ?_, [], List.prefix_rfl, rfl⟩
    intro earlier before
    rw [List.prefix_nil.mp before]
    exact Nat.le_refl 0

private theorem callbacks_of_getElem? (pooled : Pooled wiring journal dispatcher) {id : HandleId}
    {handle : Handle σ} (present : dispatcher.handles[id]? = some handle) :
    handle.callbacks = wiring id := by
  have there := congrArg (fun callbacks => callbacks[id]?) pooled.callbacks
  have within := (List.getElem?_eq_some_iff.mp present).1
  simp only [List.getElem?_map, present, List.getElem?_range within, Option.map_some,
    Option.some.injEq] at there
  exact there

private theorem transfer (pooled : Pooled wiring journal dispatcher) {changed : Dispatcher σ}
    {added : List (Activity σ)} (sound : ∃ bindings, Sound bindings changed)
    (wired : changed.wiring = dispatcher.wiring)
    (callbacks : changed.handles.map Handle.callbacks = dispatcher.handles.map Handle.callbacks)
    (allocations : added.filterMap Activity.allocated? = [])
    (bounded : Bounded dispatcher.handles.length changed.active.size (journal ++ added)) :
    Pooled wiring (journal ++ added) changed := by
  have length : changed.handles.length = dispatcher.handles.length := by
    have lengths := congrArg List.length callbacks
    rwa [List.length_map, List.length_map] at lengths
  refine ⟨sound, wired.trans pooled.wired, ?_, ?_, ?_⟩
  · rw [List.filterMap_append, allocations, List.append_nil, length]
    exact pooled.allocations
  · rw [callbacks, length]
    exact pooled.callbacks
  · rw [length]
    exact bounded

private theorem quietAll (pooled : Pooled wiring journal dispatcher)
    {activities : List (Activity σ)}
    (quiet : ∀ activity ∈ activities, activity.IsQuiet) :
    Pooled wiring (journal ++ activities) dispatcher :=
  pooled.transfer pooled.sound rfl rfl (filterMap_allocated?_of_quiet quiet)
    (pooled.bounded.quietAll quiet)

private theorem quiet (pooled : Pooled wiring journal dispatcher) {activity : Activity σ}
    (quiet : activity.IsQuiet) : Pooled wiring (journal ++ [activity]) dispatcher := by
  refine pooled.quietAll (fun other member => ?_)
  rwa [List.mem_singleton.mp member]

private theorem retire (pooled : Pooled wiring journal dispatcher) {id : HandleId}
    {handle : Handle σ}
    (active : dispatcher.active.get? txn = some id)
    (present : dispatcher.handles[id]? = some handle) (finishes : handle.state = .idle) :
    Pooled wiring (journal ++ [.finished txn id]) (dispatcher.retire txn id) := by
  obtain ⟨bindings, sound⟩ := pooled.sound
  have bounded := pooled.bounded
  rw [Table.size_erase_of_get? sound.keys active] at bounded
  refine pooled.transfer ⟨bindings, sound.retire active present finishes⟩ rfl ?_ rfl ?_
  · exact map_callbacks_modify _ _ (fun _ => rfl)
  · exact bounded.retire txn id

private theorem apart (pooled : Pooled wiring journal dispatcher)
    (delayed clocked now snoops finished) :
    Pooled wiring journal { dispatcher with delayed, clocked, now, snoops, finished } := by
  obtain ⟨bindings, sound⟩ := pooled.sound
  exact { pooled with sound := ⟨bindings, { sound with }⟩ }

end Pooled

/-! ### Reactions -/

variable [Inhabited σ]

namespace Pooled

variable {wiring : HandleId → CallbackTable σ} {journal : List (Activity σ)}
  {dispatcher : Dispatcher σ} {txn : TxnId}

private theorem advanceMachine (pooled : Pooled wiring journal dispatcher) {bound : Bound σ}
    (found : dispatcher.bound? txn = some bound) (event : Phase) (next : State)
    (fired : List Phase) :
    Pooled wiring (journal ++ (dispatcher.advanceMachine txn bound event next fired).journal)
      (dispatcher.advanceMachine txn bound event next fired).dispatcher := by
  obtain ⟨bindings, sound⟩ := pooled.sound
  have quiet : ∀ activity ∈ (dispatcher.advanceMachine txn bound event next fired).journal,
      activity.IsQuiet := fun activity member => isQuiet_of_mem_advanceMachine member
  have advanced : ∃ bindings,
      Sound bindings (dispatcher.advanceMachine txn bound event next fired).dispatcher :=
    ⟨bindings, sound.advanceMachine found event next fired⟩
  obtain ⟨delayed, clocked, result⟩ := dispatcher.advanceMachine_eq txn bound event next fired
  refine pooled.transfer advanced ?_ ?_ (filterMap_allocated?_of_quiet quiet) ?_
  · rw [result]
  · rw [result]
    exact map_callbacks_set (bound?_eq_some_iff.mp found).2.1 rfl
  · rw [result]
    exact pooled.bounded.quietAll quiet

private theorem react (pooled : Pooled wiring journal dispatcher) (event : Phase) (txn : TxnId) :
    Pooled wiring (journal ++ (dispatcher.react event txn).journal)
      (dispatcher.react event txn).dispatcher := by
  have reaction := dispatcher.react_reaction event txn
  generalize dispatcher.react event txn = outcome at reaction ⊢
  cases reaction with
  | unbound absent =>
      rw [List.append_nil]
      exact pooled
  | notified bound found early =>
      rw [List.append_cons]
      exact (pooled.quiet ⟨rfl, rfl⟩).advanceMachine found _ _ _
  | refused bound found trigger given stuck =>
      obtain ⟨bindings, sound⟩ := pooled.sound
      rw [sound.ensureScratch_eq found]
      exact pooled.quiet ⟨rfl, rfl⟩
  | moved bound found trigger given move step busy =>
      rw [List.append_cons, List.append_cons]
      exact ((pooled.quiet ⟨rfl, rfl⟩).quiet ⟨rfl, rfl⟩).advanceMachine found _ _ _
  | finished bound found trigger given move step finishes =>
      have told : Pooled wiring (journal ++ [.reacting txn trigger] ++
          [.moved txn bound.handle.state trigger move.next]) dispatcher :=
        (pooled.quiet ⟨rfl, rfl⟩).quiet ⟨rfl, rfl⟩
      have after := bound?_advanceMachine_self found trigger move.next move.fired
      obtain ⟨active, present, -, -⟩ := bound?_eq_some_iff.mp after
      have retired := (told.advanceMachine found _ _ move.fired).retire active present finishes
      simpa only [List.append_assoc, List.cons_append, List.nil_append] using retired

/-! ### Binding -/

private theorem bindRecord (pooled : Pooled wiring journal dispatcher) (record : Transaction)
    (isSnoop : Bool) :
    Pooled wiring (journal ++ (dispatcher.bindRecord record isSnoop).journal)
      (dispatcher.bindRecord record isSnoop).dispatcher := by
  obtain ⟨bindings, sound⟩ := pooled.sound
  have soundAfter : ∃ bindings, Sound bindings (dispatcher.bindRecord record isSnoop).dispatcher :=
    ⟨_, sound.bindRecord record isSnoop⟩
  have full : dispatcher.active.size + dispatcher.idle.length = dispatcher.handles.length := by
    simpa [Table.values, Table.size] using sound.shared.length_eq
  cases active : dispatcher.active.get? record.uid with
  | some id =>
      simp only [Dispatcher.bindRecord, active] at soundAfter ⊢
      refine pooled.transfer soundAfter rfl (map_callbacks_modify _ _ (fun _ => rfl)) rfl ?_
      rw [List.append_nil]
      exact pooled.bounded
  | none =>
      have size : ∀ id, (dispatcher.active.insert record.uid id).size =
          dispatcher.active.size + 1 := by
        intro id
        simp only [Table.size, List.length_cons,
          Table.insert_bindings_of_not_mem (Table.get?_eq_none_iff.mp active)]
      cases idle : dispatcher.idle with
      | cons id rest =>
          -- some handle is free, so one more use is still within the limit
          rw [idle, List.length_cons] at full
          simp only [Dispatcher.bindRecord, active, pick, idle] at soundAfter ⊢
          refine pooled.transfer soundAfter rfl (map_callbacks_modify _ _ (fun _ => rfl)) rfl ?_
          have bounded : Bounded (max dispatcher.handles.length (dispatcher.active.size + 1))
              (dispatcher.active.size + 1) (journal ++ [.recycled id record.uid]) :=
            pooled.bounded.bind rfl rfl
          rw [Nat.max_eq_left (by omega)] at bounded
          simp only [occupy, size]
          exact bounded
      | nil =>
          -- every handle is in use, so this is a use that there never was
          rw [idle, List.length_nil, Nat.add_zero] at full
          simp only [Dispatcher.bindRecord, active, pick, idle] at soundAfter ⊢
          have bounded : Bounded (max dispatcher.handles.length (dispatcher.active.size + 1))
              (dispatcher.active.size + 1) (journal ++
                [.allocated dispatcher.handles.length (dispatcher.handles.length + 1)]) :=
            pooled.bounded.bind rfl rfl
          rw [full, Nat.max_eq_right (Nat.le_succ _)] at bounded
          refine ⟨soundAfter, pooled.wired, ?_, ?_, ?_⟩
          · rw [List.filterMap_append, pooled.allocations]
            simp only [occupy, List.length_modify, List.length_append, List.length_singleton,
              List.range_succ]
            rfl
          · simp only [occupy]
            rw [map_callbacks_modify]
            · simp only [List.map_append, pooled.callbacks, List.length_modify,
                List.length_append, List.length_singleton, List.range_succ, List.map_cons,
                List.map_nil, Handle.fresh, pooled.wired]
            · intro handle
              rfl
          · simp only [occupy, size, full, List.length_modify, List.length_append,
              List.length_singleton]
            exact bounded

private theorem kept (wiring : HandleId → CallbackTable σ) :
    Kept (fun journal dispatcher => Pooled wiring journal dispatcher) where
  agenda := fun delayed clocked now pooled => pooled.apart delayed clocked now _ _
  react := fun event txn pooled => pooled.react event txn
  numbered := fun snoops pooled => pooled.apart _ _ _ snoops _
  bindRecord := fun record isSnoop pooled => pooled.bindRecord record isSnoop
  collected := fun finished pooled => pooled.apart _ _ _ _ finished

end Pooled

/-! ### Identities -/

def identitiesOf (dispatcher : Dispatcher σ) : List Operation → List TxnId
  | [] => []
  | .bind record isSnoop :: rest =>
      dispatcher.identity record :: (dispatcher.perform (.bind record isSnoop)).identitiesOf rest
  | first :: rest => (dispatcher.perform first).identitiesOf rest

/-- The numbers of records made up for snoops are counted up and lie above all that were
named before. -/
structure Numbered (known : List TxnId) (dispatcher : Dispatcher σ) : Prop where
  below : ∀ txn ∈ known, txn.number < snoopBase + dispatcher.snoops
  active : ∀ txn ∈ dispatcher.active.keys, txn ∈ known

namespace Numbered

variable {known : List TxnId} {dispatcher : Dispatcher σ}

private theorem react (numbered : Numbered known dispatcher) (event : Phase) (txn : TxnId) :
    Numbered known (dispatcher.react event txn).dispatcher := by
  have reaction := dispatcher.react_reaction event txn
  generalize dispatcher.react event txn = outcome at reaction ⊢
  have advanced : ∀ bound trigger next fired,
      Numbered known
        (dispatcher.advanceMachine txn bound trigger next fired).dispatcher := by
    intro bound trigger next fired
    obtain ⟨delayed, clocked, result⟩ :=
      dispatcher.advanceMachine_eq txn bound trigger next fired
    rw [result]
    exact ⟨numbered.below, numbered.active⟩
  cases reaction with
  | unbound absent => exact numbered
  | notified bound found early => exact advanced ..
  | refused bound found trigger given stuck => exact ⟨numbered.below, numbered.active⟩
  | moved bound found trigger given move step busy => exact advanced ..
  | finished bound found trigger given move step finishes =>
      have moved := advanced bound trigger move.next move.fired
      refine ⟨moved.below, fun other member => moved.active other ?_⟩
      simp only [retire, Table.keys_erase] at member
      exact (List.mem_filter.mp member).1

private theorem lasting (known : List TxnId) :
    Lasting (fun dispatcher : Dispatcher σ => Numbered known dispatcher) where
  agenda := fun _ _ _ numbered => ⟨numbered.below, numbered.active⟩
  react := fun event txn numbered => numbered.react event txn

private theorem bindRecord (numbered : Numbered known dispatcher) {record : Transaction}
    (low : record.uid.number < snoopBase + dispatcher.snoops) (isSnoop : Bool) :
    Numbered (known ++ [record.uid]) (dispatcher.bindRecord record isSnoop).dispatcher := by
  have snoops : (dispatcher.bindRecord record isSnoop).dispatcher.snoops =
      dispatcher.snoops := by
    unfold Dispatcher.bindRecord pick
    split
    · rfl
    · split <;> rfl
  refine ⟨?_, ?_⟩
  · intro txn member
    rw [snoops]
    rcases List.mem_append.mp member with old | new
    · exact numbered.below txn old
    · rw [List.mem_singleton.mp new]
      exact low
  · intro txn member
    cases active : dispatcher.active.get? record.uid with
    | some id =>
        simp only [Dispatcher.bindRecord, active] at member
        exact List.mem_append_left _ (numbered.active txn member)
    | none =>
        rw [(active_bindRecord_self record isSnoop active).1, Table.keys_insert] at member
        rcases List.mem_cons.mp member with rfl | member
        · exact List.mem_append_right _ (List.mem_singleton_self _)
        · exact List.mem_append_left _ (numbered.active txn (List.mem_filter.mp member).1)

private theorem bind (numbered : Numbered known dispatcher) {record : Option Transaction}
    (supplied : ∀ given, record = some given → given.uid.number < snoopBase) (isSnoop : Bool) :
    Numbered (known ++ [dispatcher.identity record])
      (dispatcher.bind record isSnoop).dispatcher := by
  cases record with
  | some given =>
      exact numbered.bindRecord (Nat.lt_add_right _ (supplied given rfl)) isSnoop
  | none =>
      have counted : Numbered known { dispatcher with snoops := dispatcher.snoops + 1 } :=
        ⟨fun txn member => Nat.lt_succ_of_lt (numbered.below txn member), numbered.active⟩
      have low : (Transaction.forSnoop ⟨snoopBase + dispatcher.snoops⟩).uid.number <
          snoopBase + (dispatcher.snoops + 1) := Nat.lt_succ_self _
      exact counted.bindRecord low isSnoop

private theorem performAll (numbered : Numbered known dispatcher) {operations : List Operation}
    (supplied : ∀ record isSnoop, .bind (some record) isSnoop ∈ operations →
      record.uid.number < snoopBase) :
    Numbered (known ++ dispatcher.identitiesOf operations)
      (dispatcher.performAll operations) := by
  induction operations generalizing known dispatcher with
  | nil =>
      rw [identitiesOf, List.append_nil]
      exact numbered
  | cons first rest ih =>
      have later := fun record isSnoop member =>
        supplied record isSnoop (List.mem_cons_of_mem first member)
      cases first with
      | bind record isSnoop =>
          have bound : Numbered (known ++ [dispatcher.identity record])
              (dispatcher.perform (.bind record isSnoop)) := by
            refine numbered.bind ?_ isSnoop
            rintro given rfl
            exact supplied given isSnoop List.mem_cons_self
          rw [identitiesOf, List.append_cons]
          exact ih bound later
      | react event txn => exact ih (numbered.react event txn) later
      | schedule request => exact ih ((lasting known).schedule numbered request) later
      | advanceTo time budget => exact ih ((lasting known).advanceTo numbered time budget) later
      | clockEdge => exact ih ((lasting known).clockEdge numbered) later
      | drainFinished => exact ih ⟨numbered.below, numbered.active⟩ later

omit [Inhabited σ] in
private theorem inactive (numbered : Numbered known dispatcher) :
    ⟨snoopBase + dispatcher.snoops⟩ ∉ known ∧
      dispatcher.active.get? ⟨snoopBase + dispatcher.snoops⟩ = none := by
  have fresh : ⟨snoopBase + dispatcher.snoops⟩ ∉ known := fun member =>
    Nat.lt_irrefl _ (numbered.below _ member)
  exact ⟨fresh, Table.get?_eq_none_iff.mpr (fun member => fresh (numbered.active _ member))⟩

end Numbered

/-! ### Fresh bindings -/

/-- A binding made anew: the handle was nobody's, and nothing is left on it from before but
its callbacks. -/
structure BindsAfresh (dispatcher : Dispatcher σ) (record : Transaction) (isSnoop : Bool)
    (outcome : Outcome σ HandleId) : Prop where
  nobodys : ∀ txn, dispatcher.active.get? txn ≠ some outcome.answer
  active : outcome.dispatcher.active = dispatcher.active.insert record.uid outcome.answer
  handle : outcome.dispatcher.handles[outcome.answer]? =
    some { callbacks := dispatcher.wiring outcome.answer, state := .idle, record := some record
           beats := 0, isSnoop, start := dispatcher.now }
  scratch : outcome.dispatcher.scratch.get? record.uid = some default
  now : outcome.dispatcher.now = dispatcher.now

private theorem Pooled.bindsAfresh {wiring : HandleId → CallbackTable σ}
    {journal : List (Activity σ)}
    {dispatcher : Dispatcher σ} (pooled : Pooled wiring journal dispatcher)
    (record : Transaction) (isSnoop : Bool)
    (inactive : dispatcher.active.get? record.uid = none) :
    BindsAfresh dispatcher record isSnoop (dispatcher.bindRecord record isSnoop) := by
  obtain ⟨bindings, sound⟩ := pooled.sound
  have active := (active_bindRecord_self record isSnoop inactive).1
  have answer : (dispatcher.bindRecord record isSnoop).answer =
      (dispatcher.pick record.uid).answer := by
    simp only [Dispatcher.bindRecord, inactive]
  rw [← answer] at active
  obtain ⟨id, callbacks, found⟩ := bound?_bindRecord_of_inactive sound record isSnoop inactive
  obtain ⟨activeAfter, present, -, -⟩ := bound?_eq_some_iff.mp found
  rw [active, Table.get?_insert_self, Option.some.injEq] at activeAfter
  refine ⟨?_, active, ?_, ?_, ?_⟩
  · intro txn taken
    rw [answer] at taken
    exact (pick_answer sound record.uid).2 txn _ taken rfl
  · have wired := (pooled.bindRecord record isSnoop).callbacks_of_getElem? present
    simp only at wired
    rw [activeAfter, present, wired, pooled.wired]
  · simp only [Dispatcher.bindRecord, inactive, occupy, Table.get?_insert_self]
  · simp only [Dispatcher.bindRecord, inactive, occupy, now_pick]

/-- How handles are found and made after a run that named some transactions. -/
structure Binds (named : List TxnId) (dispatcher : Dispatcher σ) : Prop where
  again : ∀ record isSnoop id, dispatcher.active.get? record.uid = some id →
    dispatcher.bind (some record) isSnoop =
      ⟨{ dispatcher with
          handles := dispatcher.handles.modify id (fun old =>
            { old with start := dispatcher.now }) }, [], id⟩
  afresh : ∀ record isSnoop, dispatcher.active.get? record.uid = none →
    BindsAfresh dispatcher record isSnoop (dispatcher.bind (some record) isSnoop)
  madeUp : ∀ isSnoop, dispatcher.identity none ∉ named ∧
    dispatcher.active.get? (dispatcher.identity none) = none ∧
      BindsAfresh dispatcher (.forSnoop (dispatcher.identity none)) isSnoop
        (dispatcher.bind none isSnoop)

/-- The handles of a pool and how they came about, by a journal. -/
structure IsTight (wiring : HandleId → CallbackTable σ) (journal : List (Activity σ))
    (dispatcher : Dispatcher σ) : Prop where
  allocations : journal.filterMap Activity.allocated? = List.range dispatcher.handles.length
  callbacks : dispatcher.handles.map Handle.callbacks =
    (List.range dispatcher.handles.length).map wiring
  active : inUse journal = dispatcher.active.size
  highWater : IsGreatest {count | ∃ earlier, earlier <+: journal ∧ inUse earlier = count}
    dispatcher.handles.length

/-- After every run of calls that names no record as those made up for snoops are named, an
active transaction is found and any other is bound afresh, one that is made up never having
been named before; and there are as many handles, each wired once and in order, as there
have ever been active transactions at once. -/
theorem binds_and_isTight (config : EngineConfig) (wiring : HandleId → CallbackTable σ)
    (operations : List Operation)
    (supplied : ∀ record isSnoop, .bind (some record) isSnoop ∈ operations →
      record.uid.number < snoopBase) :
    Binds ((new config wiring).identitiesOf operations)
        ((new config wiring).performAll operations) ∧
      IsTight wiring ((new config wiring).journalAll operations)
        ((new config wiring).performAll operations) := by
  have pooled := (Pooled.kept wiring).performAll (Pooled.new config wiring) operations
  have nothing : Numbered [] (new config wiring) := by
    refine ⟨?_, ?_⟩ <;> intro txn member <;> cases member
  have numbered := nothing.performAll supplied
  rw [List.nil_append] at pooled numbered
  generalize (new config wiring).performAll operations = dispatcher at pooled numbered ⊢
  refine ⟨⟨?_, ?_, ?_⟩, ?_⟩
  · intro record isSnoop id active
    simp only [bind, Dispatcher.bindRecord, active]
  · intro record isSnoop inactive
    exact pooled.bindsAfresh record isSnoop inactive
  · intro isSnoop
    obtain ⟨fresh, inactive⟩ := numbered.inactive
    have counted := (Pooled.kept wiring).numbered (dispatcher.snoops + 1) pooled
    have bound := counted.bindsAfresh (.forSnoop ⟨snoopBase + dispatcher.snoops⟩) isSnoop inactive
    exact ⟨fresh, inactive, bound.nobodys, bound.active, bound.handle, bound.scratch, bound.now⟩
  · exact ⟨pooled.allocations, pooled.callbacks, pooled.bounded.inUse_eq,
      pooled.bounded.isGreatest⟩

/-- A read and a snoop at once, of which the snoop ends by way of the delay queue; its handle
is the one that the next snoop gets. -/
def snoopWithinRead : List Operation :=
  [.bind (some (.plain ⟨0⟩ .read)) false, .bind none true,
    .react .beginRequest ⟨snoopBase⟩, .react .beginResponse ⟨snoopBase⟩,
    .schedule ⟨.endResponse, ⟨snoopBase⟩, .after 3⟩, .advanceTo 5 1]

theorem binds_and_isTight_of_snoopWithinRead :
    ((new {} (fun _ => .empty) : Dispatcher Unit).performAll snoopWithinRead).handles.length = 2 ∧
      inUse ((new {} (fun _ => .empty) : Dispatcher Unit).journalAll snoopWithinRead) = 1 ∧
      (((new {} (fun _ => .empty) : Dispatcher Unit).performAll snoopWithinRead).bind none
        true).answer = 1 ∧
      Binds ((new {} (fun _ => .empty) : Dispatcher Unit).identitiesOf snoopWithinRead)
        ((new {} (fun _ => .empty) : Dispatcher Unit).performAll snoopWithinRead) ∧
      IsTight (fun _ => .empty) ((new {} (fun _ => .empty) : Dispatcher Unit).journalAll
        snoopWithinRead) ((new {} (fun _ => .empty) : Dispatcher Unit).performAll
          snoopWithinRead) := by
  have supplied : ∀ record isSnoop, .bind (some record) isSnoop ∈ snoopWithinRead →
      record.uid.number < snoopBase := by
    intro record isSnoop member
    simp only [snoopWithinRead, List.mem_cons, Operation.bind.injEq, Option.some.injEq,
      reduceCtorEq, false_and, List.not_mem_nil, or_false] at member
    rw [member.1]
    decide
  obtain ⟨binds, tight⟩ := binds_and_isTight {} (fun _ => (.empty : CallbackTable Unit))
    snoopWithinRead supplied
  exact ⟨rfl, rfl, rfl, binds, tight⟩

end Dispatcher

end Handshake
