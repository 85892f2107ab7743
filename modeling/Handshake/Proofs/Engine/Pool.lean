import Mathlib.Data.List.Basic
import Mathlib.Data.List.Nodup
import Mathlib.Data.List.Perm.Basic
import Handshake.Proofs.Engine.Operation
import Handshake.Proofs.Engine.Reaction
import Handshake.Proofs.Table
set_option autoImplicit false

/-! The handle pool. Active and idle handles together are the allocated ones, each of
them once; an active handle holds the record of its transaction and an idle one holds
none. Every call keeps this, whether it fails or not, and the bindings made so far are
those that finished and those that are still active. -/

namespace Handshake.Dispatcher

private theorem getElem?_modify_self {α : Type} {items : List α} {index : Nat} {item : α}
    (present : items[index]? = some item) (change : α → α) :
    (items.modify index change)[index]? = some (change item) := by
  rw [List.getElem?_modify_eq, present]
  rfl

variable {σ : Type}

/-- The state of a pool after some number of bindings. -/
structure Sound (bindings : Nat) (dispatcher : Dispatcher σ) : Prop where
  -- a transaction is active once
  keys : dispatcher.active.keys.Nodup
  -- every allocated handle is listed exactly once, as active or as idle
  shared :
    (dispatcher.active.values ++ dispatcher.idle).Perm (List.range dispatcher.handles.length)
  bound : ∀ txn id, dispatcher.active.get? txn = some id →
    ∃ handle record, dispatcher.handles[id]? = some handle ∧ handle.record = some record ∧
      record.uid = txn
  unbound : ∀ id ∈ dispatcher.idle,
    ∃ handle, dispatcher.handles[id]? = some handle ∧ handle.record = none ∧
      handle.state = .idle
  -- exactly the active transactions have a scratch value, one each
  scratch : dispatcher.scratch.keys.Perm dispatcher.active.keys
  -- no request of a callback is left over
  settled : dispatcher.pending = []
  counted : bindings = dispatcher.finishedCount + dispatcher.active.size

namespace Sound

variable {bindings : Nat} {dispatcher : Dispatcher σ}

theorem handles_nodup (sound : Sound bindings dispatcher) :
    (dispatcher.active.values ++ dispatcher.idle).Nodup :=
  sound.shared.nodup_iff.mpr List.nodup_range

theorem not_idle (sound : Sound bindings dispatcher) {txn : TxnId} {id : HandleId}
    (active : dispatcher.active.get? txn = some id) : id ∉ dispatcher.idle := fun member =>
  (List.nodup_append.mp sound.handles_nodup).2.2 id (Table.mem_values_of_get? active) id member rfl

theorem exclusive (sound : Sound bindings dispatcher) {left right : TxnId} {id : HandleId}
    (atLeft : dispatcher.active.get? left = some id)
    (atRight : dispatcher.active.get? right = some id) : left = right := by
  obtain ⟨handle, record, present, recorded, leftUid⟩ := sound.bound left id atLeft
  obtain ⟨again, same, presentAgain, recordedAgain, rightUid⟩ := sound.bound right id atRight
  rw [present] at presentAgain
  cases presentAgain
  rw [recorded] at recordedAgain
  cases recordedAgain
  exact leftUid.symm.trans rightUid

theorem withHandles (sound : Sound bindings dispatcher) {handles : List (Handle σ)}
    (length : handles.length = dispatcher.handles.length)
    (kept : ∀ id handle, dispatcher.handles[id]? = some handle →
      ∃ changed, handles[id]? = some changed ∧ changed.record = handle.record ∧
        (id ∈ dispatcher.idle → changed.state = handle.state)) :
    Sound bindings { dispatcher with handles } where
  keys := sound.keys
  shared := by rw [length]; exact sound.shared
  bound := by
    intro txn id active
    obtain ⟨handle, record, present, recorded, uid⟩ := sound.bound txn id active
    obtain ⟨changed, presentAfter, same, -⟩ := kept id handle present
    exact ⟨changed, record, presentAfter, same.trans recorded, uid⟩
  unbound := by
    intro id member
    obtain ⟨handle, present, vacant, idle⟩ := sound.unbound id member
    obtain ⟨changed, presentAfter, same, state⟩ := kept id handle present
    exact ⟨changed, presentAfter, same.trans vacant, (state member).trans idle⟩
  scratch := sound.scratch
  settled := sound.settled
  counted := sound.counted

end Sound

theorem sound_new (config : EngineConfig) (wiring : HandleId → CallbackTable σ) :
    Sound 0 (new config wiring) where
  keys := List.nodup_nil
  shared := List.Perm.refl _
  bound := by intro txn id active; cases active
  unbound := by intro id member; cases member
  scratch := List.Perm.refl _
  settled := rfl
  counted := rfl

namespace Sound

variable {bindings : Nat} {dispatcher : Dispatcher σ}

/-! ### Binding -/

theorem pick (sound : Sound bindings dispatcher) (txn : TxnId) :
    Sound bindings
      { (dispatcher.pick txn).dispatcher with
        idle := (dispatcher.pick txn).answer :: (dispatcher.pick txn).dispatcher.idle } := by
  cases idle : dispatcher.idle with
  | cons id rest =>
      simp only [Dispatcher.pick, idle]
      rw [← idle]
      exact sound
  | nil =>
      simp only [Dispatcher.pick, idle]
      have values : dispatcher.active.values.Perm (List.range dispatcher.handles.length) := by
        have shared := sound.shared
        rwa [idle, List.append_nil] at shared
      refine ⟨sound.keys, ?_, ?_, ?_, sound.scratch, sound.settled, sound.counted⟩
      · rw [List.length_append, List.length_singleton, List.range_succ]
        exact values.append_right _
      · intro other id active
        obtain ⟨handle, record, present, recorded, uid⟩ := sound.bound other id active
        refine ⟨handle, record, ?_, recorded, uid⟩
        rw [List.getElem?_append_left (List.getElem?_eq_some_iff.mp present).1]
        exact present
      · intro id member
        rw [List.mem_singleton.mp member]
        exact ⟨_, List.getElem?_concat_length, rfl, rfl⟩

theorem occupy [Inhabited σ] {id : HandleId}
    (sound : Sound bindings { dispatcher with idle := id :: dispatcher.idle })
    (record : Transaction) (isSnoop : Bool)
    (inactive : dispatcher.active.get? record.uid = none) :
    Sound (bindings + 1) (dispatcher.occupy id record isSnoop) := by
  have fresh : record.uid ∉ dispatcher.active.keys := Table.get?_eq_none_iff.mp inactive
  have freshScratch : record.uid ∉ dispatcher.scratch.keys := fun member =>
    fresh (sound.scratch.mem_iff.mp member)
  have nodup : (dispatcher.active.values ++ id :: dispatcher.idle).Nodup := sound.handles_nodup
  have notRest : id ∉ dispatcher.idle :=
    (List.nodup_cons.mp (List.nodup_append.mp nodup).2.1).1
  obtain ⟨old, present, -, -⟩ := sound.unbound id List.mem_cons_self
  have elsewhere : ∀ other, other ≠ id →
      (dispatcher.occupy id record isSnoop).handles[other]? = dispatcher.handles[other]? :=
    fun other different => List.getElem?_modify_ne _ _ different.symm
  refine ⟨?_, ?_, ?_, ?_, ?_, sound.settled, ?_⟩
  · exact Table.keys_insert_nodup sound.keys _ _
  · have values : (dispatcher.occupy id record isSnoop).active.values =
        id :: dispatcher.active.values := by
      simp only [Dispatcher.occupy, Table.values, Table.insert_bindings_of_not_mem fresh,
        List.map_cons]
    have length : (dispatcher.occupy id record isSnoop).handles.length =
        dispatcher.handles.length := List.length_modify ..
    rw [values, length]
    exact (List.perm_middle.symm).trans sound.shared
  · intro txn taken active
    simp only [Dispatcher.occupy, Table.get?_insert] at active
    split at active
    · rename_i same
      cases active
      exact ⟨_, record, getElem?_modify_self present _, rfl, same.symm⟩
    · have different : taken ≠ id := by
        intro same
        exact sound.not_idle active (by rw [same]; exact List.mem_cons_self)
      rw [elsewhere taken different]
      exact sound.bound txn taken active
  · intro other member
    have different : other ≠ id := fun same => notRest (same ▸ member)
    rw [elsewhere other different]
    exact sound.unbound other (List.mem_cons_of_mem id member)
  · simp only [Dispatcher.occupy, Table.keys, Table.insert_bindings_of_not_mem fresh,
      Table.insert_bindings_of_not_mem freshScratch, List.map_cons]
    exact sound.scratch.cons record.uid
  · have counted := sound.counted
    simp only [Dispatcher.occupy, Table.size, Table.insert_bindings_of_not_mem fresh,
      List.length_cons] at counted ⊢
    omega

theorem bindRecord [Inhabited σ] (sound : Sound bindings dispatcher) (record : Transaction)
    (isSnoop : Bool) :
    Sound (bindings + if dispatcher.isActive record.uid then 0 else 1)
      (dispatcher.bindRecord record isSnoop).dispatcher := by
  cases active : dispatcher.active.get? record.uid with
  | some id =>
      have contained : dispatcher.isActive record.uid = true := by
        simp only [isActive, Table.contains, active, Option.isSome_some]
      simp only [contained, if_true, Nat.add_zero, Dispatcher.bindRecord, active]
      refine sound.withHandles (List.length_modify ..) ?_
      intro other handle present
      by_cases same : id = other
      · subst other
        exact ⟨_, getElem?_modify_self present _, rfl, fun _ => rfl⟩
      · refine ⟨handle, ?_, rfl, fun _ => rfl⟩
        rw [List.getElem?_modify_ne _ _ same]
        exact present
  | none =>
      have contained : dispatcher.isActive record.uid = false := by
        simp only [isActive, Table.contains, active, Option.isSome_none]
      simp only [contained, Bool.false_eq_true, if_false, Dispatcher.bindRecord, active]
      refine (sound.pick record.uid).occupy record isSnoop ?_
      unfold Dispatcher.pick
      split <;> exact active

theorem bind [Inhabited σ] (sound : Sound bindings dispatcher) (record : Option Transaction)
    (isSnoop : Bool) :
    Sound (bindings + dispatcher.bindingsMade (.bind record isSnoop))
      (dispatcher.bind record isSnoop).dispatcher := by
  cases record with
  | some record => exact sound.bindRecord record isSnoop
  | none =>
      have numbered : Sound bindings { dispatcher with snoops := dispatcher.snoops + 1 } :=
        { sound with }
      exact numbered.bindRecord (.forSnoop ⟨snoopBase + dispatcher.snoops⟩) isSnoop

/-! ### Reacting -/

theorem advanceMachine [Inhabited σ] (sound : Sound bindings dispatcher) {txn : TxnId}
    {bound : Bound σ} (found : dispatcher.bound? txn = some bound) (event : Phase)
    (next : State) (fired : List Phase) :
    Sound bindings
      (dispatcher.advanceMachine txn bound event next fired).dispatcher := by
  obtain ⟨active, present, recorded, -⟩ := bound?_eq_some_iff.mp found
  obtain ⟨delayed, clocked, result⟩ :=
    dispatcher.advanceMachine_eq txn bound event next fired
  rw [result]
  have moved : Sound bindings
      { dispatcher with
        handles :=
          dispatcher.handles.set bound.id (dispatcher.handleAfter bound event next fired) } := by
    refine sound.withHandles List.length_set ?_
    intro other handle presentOther
    by_cases same : bound.id = other
    · subst other
      rw [present] at presentOther
      cases presentOther
      refine ⟨_, List.getElem?_set_self (List.getElem?_eq_some_iff.mp present).1, rfl, ?_⟩
      exact fun member => absurd member (sound.not_idle active)
    · rw [List.getElem?_set_ne same]
      exact ⟨handle, presentOther, rfl, fun _ => rfl⟩
  have known : txn ∈ dispatcher.scratch.keys :=
    sound.scratch.mem_iff.mpr (Table.mem_keys_of_get? active)
  have distinct : dispatcher.scratch.keys.Nodup := sound.scratch.nodup_iff.mpr sound.keys
  exact
    { moved with
      scratch := (Table.keys_insert_perm_of_mem distinct known _).trans sound.scratch
      settled := rfl }

theorem retire (sound : Sound bindings dispatcher) {txn : TxnId} {id : HandleId}
    {handle : Handle σ} (active : dispatcher.active.get? txn = some id)
    (present : dispatcher.handles[id]? = some handle) (finishes : handle.state = .idle) :
    Sound bindings (dispatcher.retire txn id) := by
  have notIdle := sound.not_idle active
  have elsewhere : ∀ other, other ≠ id →
      (dispatcher.retire txn id).handles[other]? = dispatcher.handles[other]? :=
    fun other different => List.getElem?_modify_ne _ _ different.symm
  refine ⟨?_, ?_, ?_, ?_, ?_, sound.settled, ?_⟩
  · exact Table.keys_erase_nodup sound.keys txn
  · have length : (dispatcher.retire txn id).handles.length = dispatcher.handles.length :=
      List.length_modify ..
    have values := Table.values_perm_of_get? sound.keys active
    rw [length]
    exact List.perm_middle.trans ((values.symm.append_right _).trans sound.shared)
  · intro other taken activeOther
    simp only [Dispatcher.retire, Table.get?_erase] at activeOther
    split at activeOther
    · cases activeOther
    · rename_i different
      have apart : taken ≠ id := by
        intro same
        subst same
        exact different (sound.exclusive activeOther active)
      rw [elsewhere taken apart]
      exact sound.bound other taken activeOther
  · intro other member
    by_cases same : other = id
    · subst other
      exact ⟨_, getElem?_modify_self present _, rfl, finishes⟩
    · rw [elsewhere other same]
      exact sound.unbound other ((List.mem_cons.mp member).resolve_left same)
  · simp only [Dispatcher.retire, Table.keys_erase]
    exact sound.scratch.filter _
  · have counted := sound.counted
    have size := Table.size_erase_of_get? sound.keys active
    simp only [Dispatcher.retire]
    omega

theorem ensureScratch_eq [Inhabited σ] (sound : Sound bindings dispatcher) {txn : TxnId}
    {bound : Bound σ} (found : dispatcher.bound? txn = some bound) :
    dispatcher.ensureScratch txn = dispatcher := by
  obtain ⟨active, -, -, -⟩ := bound?_eq_some_iff.mp found
  have known : dispatcher.scratch.contains txn = true :=
    Table.contains_iff_mem_keys.mpr
      (sound.scratch.mem_iff.mpr (Table.mem_keys_of_get? active))
  simp only [ensureScratch, Table.insertNew, known, if_true]

theorem react [Inhabited σ] (sound : Sound bindings dispatcher) (event : Phase) (txn : TxnId) :
    Sound bindings (dispatcher.react event txn).dispatcher := by
  have reaction := dispatcher.react_reaction event txn
  generalize dispatcher.react event txn = outcome at reaction ⊢
  cases reaction with
  | unbound absent => exact sound
  | notified bound found early => exact sound.advanceMachine found _ _ _
  | refused bound found trigger given stuck =>
      rw [sound.ensureScratch_eq found]
      exact sound
  | moved bound found trigger given move step busy => exact sound.advanceMachine found _ _ _
  | finished bound found trigger given move step finishes =>
      have moved := sound.advanceMachine found trigger move.next move.fired
      obtain ⟨active, present, -, -⟩ := bound?_eq_some_iff.mp found
      obtain ⟨delayed, clocked, result⟩ :=
        dispatcher.advanceMachine_eq txn bound trigger move.next move.fired
      rw [result] at moved ⊢
      have within := (List.getElem?_eq_some_iff.mp present).1
      exact moved.retire active (List.getElem?_set_self within) finishes

theorem lasting [Inhabited σ] (bindings : Nat) :
    Lasting (fun dispatcher : Dispatcher σ => Sound bindings dispatcher) where
  agenda := fun _ _ _ sound => { sound with }
  react := fun event txn sound => sound.react event txn

/-! ### Runs -/

theorem perform [Inhabited σ] (sound : Sound bindings dispatcher) (operation : Operation) :
    Sound (bindings + dispatcher.bindingsMade operation) (dispatcher.perform operation) := by
  cases operation with
  | bind record isSnoop => exact sound.bind record isSnoop
  | react event txn => exact sound.react event txn
  | schedule request => exact (lasting bindings).schedule sound request
  | advanceTo time budget => exact (lasting bindings).advanceTo sound time budget
  | clockEdge => exact (lasting bindings).clockEdge sound
  | drainFinished => exact { sound with }

theorem performAll [Inhabited σ] (sound : Sound bindings dispatcher)
    (operations : List Operation) :
    Sound (bindings + dispatcher.bindingsOf operations) (dispatcher.performAll operations) := by
  induction operations generalizing bindings dispatcher with
  | nil => exact sound
  | cons first rest ih =>
      have after := ih (sound.perform first)
      rw [Nat.add_assoc] at after
      exact after

end Sound

/-- After every run of calls, failed ones among them, the pool is sound: each allocated
handle is listed once, as active or as idle, an active handle holds the record of its one
transaction, an idle one holds nothing and its machine is idle, exactly the active
transactions have a scratch value, nothing is pending, and the bindings made are the
finished and the active transactions. -/
theorem performAll_new_sound [Inhabited σ] (config : EngineConfig)
    (wiring : HandleId → CallbackTable σ) (operations : List Operation) :
    Sound ((new config wiring).bindingsOf operations)
        ((new config wiring).performAll operations) ∧
      ∀ left right id,
        ((new config wiring).performAll operations).active.get? left = some id →
          ((new config wiring).performAll operations).active.get? right = some id →
            left = right := by
  have sound := (sound_new config wiring).performAll operations
  rw [Nat.zero_add] at sound
  exact ⟨sound, fun left right id atLeft atRight => sound.exclusive atLeft atRight⟩

end Handshake.Dispatcher
