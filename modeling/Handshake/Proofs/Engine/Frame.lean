import Handshake.Proofs.Engine.Pool
set_option autoImplicit false

/-! What an operation does to the transaction that it is about, and that it leaves every
other transaction as it was. Transactions do not share handles, so a change to the
handle of one is not seen by another. -/

namespace Handshake.Dispatcher

variable {σ : Type}

theorem active_advanceMachine (dispatcher : Dispatcher σ) (txn : TxnId) (bound : Bound σ)
    (event : Phase) (next : State) (fired : List Phase) :
    (dispatcher.advanceMachine txn bound event next fired).dispatcher.active =
      dispatcher.active := by
  obtain ⟨delayed, clocked, result⟩ := dispatcher.advanceMachine_eq txn bound event next fired
  rw [result]

theorem active_pick (dispatcher : Dispatcher σ) (txn : TxnId) :
    (dispatcher.pick txn).dispatcher.active = dispatcher.active := by
  unfold pick
  split <;> rfl

theorem pick_answer {bindings : Nat} {dispatcher : Dispatcher σ}
    (sound : Sound bindings dispatcher) (txn : TxnId) :
    (∃ handle, (dispatcher.pick txn).dispatcher.handles[(dispatcher.pick txn).answer]? =
        some handle) ∧
      ∀ other id, dispatcher.active.get? other = some id →
        id ≠ (dispatcher.pick txn).answer := by
  have picked := sound.pick txn
  obtain ⟨handle, present, -, -⟩ := picked.unbound _ List.mem_cons_self
  refine ⟨⟨handle, present⟩, ?_⟩
  intro other id active same
  rw [← active_pick dispatcher txn] at active
  exact picked.not_idle active (by rw [same]; exact List.mem_cons_self)

variable [Inhabited σ] {bindings : Nat} {dispatcher changed : Dispatcher σ}
  {txn other : TxnId} {bound : Bound σ}

theorem bound?_congr (active : changed.active.get? txn = dispatcher.active.get? txn)
    (handles : ∀ id, dispatcher.active.get? txn = some id →
      changed.handles[id]? = dispatcher.handles[id]?)
    (scratch : changed.scratch.get? txn = dispatcher.scratch.get? txn) :
    changed.bound? txn = dispatcher.bound? txn := by
  unfold bound?
  rw [active, scratch]
  cases found : dispatcher.active.get? txn with
  | none => rfl
  | some id => rw [Option.bind_eq_bind, Option.bind_some, handles id found]; rfl

theorem bound?_eq_none_of_inactive (inactive : dispatcher.active.get? txn = none) :
    dispatcher.bound? txn = none := by
  unfold bound?
  rw [inactive]
  rfl

theorem Sound.inactive_of_bound?_eq_none (sound : Sound bindings dispatcher)
    (absent : dispatcher.bound? txn = none) : dispatcher.active.get? txn = none := by
  cases active : dispatcher.active.get? txn with
  | none => rfl
  | some id =>
      obtain ⟨handle, record, present, recorded, -⟩ := sound.bound txn id active
      have found : dispatcher.bound? txn =
          some ⟨id, handle, record, (dispatcher.scratch.get? txn).getD default⟩ :=
        bound?_eq_some_iff.mpr ⟨active, present, recorded, rfl⟩
      rw [absent] at found
      cases found

theorem Sound.uid_of_bound? (sound : Sound bindings dispatcher)
    (found : dispatcher.bound? txn = some bound) : bound.record.uid = txn := by
  obtain ⟨active, present, recorded, -⟩ := bound?_eq_some_iff.mp found
  obtain ⟨handle, record, presentAgain, recordedAgain, uid⟩ := sound.bound txn bound.id active
  rw [present, Option.some.injEq] at presentAgain
  rw [← presentAgain, recorded, Option.some.injEq] at recordedAgain
  rw [recordedAgain, uid]

/-! ### Moving a machine -/

theorem bound?_advanceMachine_self (found : dispatcher.bound? txn = some bound) (event : Phase)
    (next : State) (fired : List Phase) :
    (dispatcher.advanceMachine txn bound event next fired).dispatcher.bound? txn =
      some ⟨bound.id, dispatcher.handleAfter bound event next fired, bound.record,
        (dispatcher.runOf bound event fired).context.scratch⟩ := by
  obtain ⟨active, present, recorded, -⟩ := bound?_eq_some_iff.mp found
  obtain ⟨delayed, clocked, result⟩ := dispatcher.advanceMachine_eq txn bound event next fired
  rw [result, bound?_eq_some_iff]
  refine ⟨active, List.getElem?_set_self (List.getElem?_eq_some_iff.mp present).1, recorded, ?_⟩
  simp only [Table.get?_insert_self, Option.getD_some]

theorem bound?_advanceMachine_of_ne (sound : Sound bindings dispatcher)
    (found : dispatcher.bound? txn = some bound) (event : Phase) (next : State)
    (fired : List Phase) (different : other ≠ txn) :
    (dispatcher.advanceMachine txn bound event next fired).dispatcher.bound? other =
      dispatcher.bound? other := by
  obtain ⟨active, -, -, -⟩ := bound?_eq_some_iff.mp found
  obtain ⟨delayed, clocked, result⟩ := dispatcher.advanceMachine_eq txn bound event next fired
  rw [result]
  refine bound?_congr rfl ?_ (Table.get?_insert_of_ne _ _ different)
  intro id activeOther
  refine List.getElem?_set_ne ?_
  rintro rfl
  exact different (sound.exclusive activeOther active)

theorem bound?_retire_self (dispatcher : Dispatcher σ) (txn : TxnId) (id : HandleId) :
    (dispatcher.retire txn id).bound? txn = none :=
  bound?_eq_none_of_inactive (Table.get?_erase_self _ _)

theorem bound?_retire_of_ne (sound : Sound bindings dispatcher) {id : HandleId}
    (active : dispatcher.active.get? txn = some id) (different : other ≠ txn) :
    (dispatcher.retire txn id).bound? other = dispatcher.bound? other := by
  refine bound?_congr (Table.get?_erase_of_ne _ different) ?_ (Table.get?_erase_of_ne _ different)
  intro taken activeOther
  refine List.getElem?_modify_ne _ _ ?_
  rintro rfl
  exact different (sound.exclusive activeOther active)

theorem bound?_react_of_ne (sound : Sound bindings dispatcher) (event : Phase)
    (different : other ≠ txn) :
    (dispatcher.react event txn).dispatcher.bound? other = dispatcher.bound? other := by
  have reaction := dispatcher.react_reaction event txn
  generalize dispatcher.react event txn = outcome at reaction ⊢
  cases reaction with
  | unbound absent => rfl
  | notified bound found early =>
      exact bound?_advanceMachine_of_ne sound found _ _ _ different
  | refused bound found trigger given stuck => exact dispatcher.bound?_ensureScratch txn other
  | moved bound found trigger given move step busy =>
      exact bound?_advanceMachine_of_ne sound found _ _ _ different
  | finished bound found trigger given move step finishes =>
      have advanced := sound.advanceMachine found trigger move.next move.fired
      have active := (bound?_eq_some_iff.mp found).1
      rw [← active_advanceMachine dispatcher txn bound trigger move.next move.fired] at active
      rw [bound?_retire_of_ne advanced active different]
      exact bound?_advanceMachine_of_ne sound found _ _ _ different

/-- A reaction binds nothing, and leaves the snoop flags as they were set on binding. -/
theorem isSnoop_of_bound?_react (sound : Sound bindings dispatcher) (event : Phase)
    (after : (dispatcher.react event txn).dispatcher.bound? other = some bound) :
    ∃ before, dispatcher.bound? other = some before ∧
      before.handle.isSnoop = bound.handle.isSnoop := by
  by_cases different : other ≠ txn
  · rw [bound?_react_of_ne sound event different] at after
    exact ⟨bound, after, rfl⟩
  obtain rfl : other = txn := not_not.mp different
  have reaction := dispatcher.react_reaction event other
  generalize dispatcher.react event other = outcome at reaction after
  cases reaction with
  | unbound absent => exact ⟨bound, after, rfl⟩
  | notified held found early =>
      rw [bound?_advanceMachine_self found] at after
      cases after
      exact ⟨held, found, rfl⟩
  | refused held found trigger given stuck =>
      rw [bound?_ensureScratch] at after
      exact ⟨bound, after, rfl⟩
  | moved held found trigger given move step busy =>
      rw [bound?_advanceMachine_self found] at after
      cases after
      exact ⟨held, found, rfl⟩
  | finished held found trigger given move step finishes =>
      rw [bound?_retire_self] at after
      cases after

/-! ### Binding -/

theorem bound?_pick (sound : Sound bindings dispatcher) (txn other : TxnId) :
    (dispatcher.pick txn).dispatcher.bound? other = dispatcher.bound? other := by
  unfold pick
  split
  · rfl
  · refine bound?_congr rfl ?_ rfl
    intro id active
    obtain ⟨handle, record, present, -, -⟩ := sound.bound other id active
    exact List.getElem?_append_left (List.getElem?_eq_some_iff.mp present).1

theorem bound?_bindRecord_of_ne (sound : Sound bindings dispatcher) (record : Transaction)
    (isSnoop : Bool) (different : other ≠ record.uid) :
    (dispatcher.bindRecord record isSnoop).dispatcher.bound? other =
      dispatcher.bound? other := by
  cases active : dispatcher.active.get? record.uid with
  | some id =>
      simp only [bindRecord, active]
      refine bound?_congr rfl ?_ rfl
      intro taken activeOther
      refine List.getElem?_modify_ne _ _ ?_
      rintro rfl
      exact different (sound.exclusive activeOther active)
  | none =>
      simp only [bindRecord, active]
      rw [← bound?_pick sound record.uid other]
      refine bound?_congr (Table.get?_insert_of_ne _ _ different) ?_
        (Table.get?_insert_of_ne _ _ different)
      intro taken activeOther
      rw [active_pick] at activeOther
      exact List.getElem?_modify_ne _ _
        (Ne.symm ((pick_answer sound record.uid).2 other taken activeOther))

theorem active_bindRecord_self (record : Transaction) (isSnoop : Bool)
    (inactive : dispatcher.active.get? record.uid = none) :
    (dispatcher.bindRecord record isSnoop).dispatcher.active =
        dispatcher.active.insert record.uid (dispatcher.pick record.uid).answer ∧
      (dispatcher.bindRecord record isSnoop).dispatcher.finished = dispatcher.finished := by
  simp only [bindRecord, inactive, occupy]
  unfold pick
  split <;> exact ⟨rfl, rfl⟩

omit [Inhabited σ] in
theorem now_pick (dispatcher : Dispatcher σ) (txn : TxnId) :
    (dispatcher.pick txn).dispatcher.now = dispatcher.now := by
  unfold pick
  split <;> rfl

theorem bound?_bindRecord_of_inactive (sound : Sound bindings dispatcher) (record : Transaction)
    (isSnoop : Bool) (inactive : dispatcher.active.get? record.uid = none) :
    ∃ id callbacks, (dispatcher.bindRecord record isSnoop).dispatcher.bound? record.uid =
      some ⟨id, { callbacks, state := .idle, record := some record, beats := 0, isSnoop
                  start := dispatcher.now }, record, default⟩ := by
  obtain ⟨⟨handle, present⟩, -⟩ := pick_answer sound record.uid
  refine ⟨(dispatcher.pick record.uid).answer, handle.callbacks, ?_⟩
  simp only [bindRecord, inactive]
  rw [bound?_eq_some_iff, ← now_pick dispatcher record.uid]
  refine ⟨Table.get?_insert_self _ _ _, ?_, rfl, ?_⟩
  · exact (List.getElem?_modify_eq _ _ _).trans (by rw [present]; rfl)
  · simp only [occupy, Table.get?_insert_self, Option.getD_some]

theorem bound?_bindRecord_self (sound : Sound bindings dispatcher) (record : Transaction)
    (isSnoop : Bool) (inactive : dispatcher.active.get? record.uid = none) :
    ∃ bound, (dispatcher.bindRecord record isSnoop).dispatcher.bound? record.uid = some bound ∧
      bound.record = record ∧ bound.handle.state = .idle ∧ bound.handle.beats = 0 ∧
        bound.handle.isSnoop = isSnoop := by
  obtain ⟨id, callbacks, found⟩ := bound?_bindRecord_of_inactive sound record isSnoop inactive
  exact ⟨_, found, rfl, rfl, rfl, rfl⟩

theorem bound?_bindRecord_of_bound {record : Transaction}
    (found : dispatcher.bound? record.uid = some bound) (isSnoop : Bool) :
    (dispatcher.bindRecord record isSnoop).dispatcher.bound? record.uid =
      some { bound with handle := { bound.handle with start := dispatcher.now } } := by
  obtain ⟨active, present, recorded, scratch⟩ := bound?_eq_some_iff.mp found
  simp only [bindRecord, active]
  rw [bound?_eq_some_iff]
  refine ⟨active, ?_, recorded, scratch⟩
  exact (List.getElem?_modify_eq _ _ _).trans (by rw [present]; rfl)

/-! ### The configuration -/

omit [Inhabited σ] in
theorem config_advanceMachine (dispatcher : Dispatcher σ) (txn : TxnId) (bound : Bound σ)
    (event : Phase) (next : State) (fired : List Phase) :
    (dispatcher.advanceMachine txn bound event next fired).dispatcher.config =
      dispatcher.config := by
  obtain ⟨delayed, clocked, result⟩ := dispatcher.advanceMachine_eq txn bound event next fired
  rw [result]

theorem config_react (dispatcher : Dispatcher σ) (event : Phase) (txn : TxnId) :
    (dispatcher.react event txn).dispatcher.config = dispatcher.config := by
  have reaction := dispatcher.react_reaction event txn
  generalize dispatcher.react event txn = outcome at reaction ⊢
  cases reaction with
  | unbound | refused => rfl
  | notified | moved => exact config_advanceMachine ..
  | finished => exact config_advanceMachine ..

theorem config_bindRecord (dispatcher : Dispatcher σ) (record : Transaction) (isSnoop : Bool) :
    (dispatcher.bindRecord record isSnoop).dispatcher.config = dispatcher.config := by
  unfold bindRecord pick
  split
  · rfl
  · split <;> rfl

theorem config_bind (dispatcher : Dispatcher σ) (record : Option Transaction) (isSnoop : Bool) :
    (dispatcher.bind record isSnoop).dispatcher.config = dispatcher.config := by
  cases record with
  | some record => exact config_bindRecord ..
  | none => exact config_bindRecord ..

theorem lasting_config (config : EngineConfig) :
    Lasting (fun dispatcher : Dispatcher σ => dispatcher.config = config) where
  agenda := fun _ _ _ same => same
  react := fun event txn same => (config_react _ event txn).trans same

theorem config_perform (dispatcher : Dispatcher σ) (operation : Operation) :
    (dispatcher.perform operation).config = dispatcher.config := by
  cases operation with
  | bind record isSnoop => exact config_bind ..
  | react event txn => exact config_react ..
  | schedule request => exact (lasting_config _).schedule rfl request
  | advanceTo time budget => exact (lasting_config _).advanceTo rfl time budget
  | clockEdge => exact (lasting_config _).clockEdge rfl
  | drainFinished => rfl

theorem config_performAll (dispatcher : Dispatcher σ) (operations : List Operation) :
    (dispatcher.performAll operations).config = dispatcher.config := by
  induction operations generalizing dispatcher with
  | nil => rfl
  | cons first rest ih => exact (ih _).trans (config_perform ..)

/-! ### The callbacks -/

/-- The callbacks of every handle are of a kind, those of handles to come included. -/
structure Wired (fits : CallbackTable σ → Prop) (dispatcher : Dispatcher σ) : Prop where
  wiring : ∀ id, fits (dispatcher.wiring id)
  handles : ∀ handle ∈ dispatcher.handles, fits handle.callbacks

namespace Wired

variable {fits : CallbackTable σ → Prop}

omit [Inhabited σ] in
theorem new {wiring : HandleId → CallbackTable σ} (config : EngineConfig)
    (fit : ∀ id, fits (wiring id)) : Wired fits (.new config wiring) where
  wiring := fit
  handles := by intro handle member; cases member

theorem callbacks_of_bound? (wired : Wired fits dispatcher)
    (found : dispatcher.bound? txn = some bound) : fits bound.handle.callbacks :=
  wired.handles bound.handle (List.mem_of_getElem? (bound?_eq_some_iff.mp found).2.1)

omit [Inhabited σ] in
theorem modify (wired : Wired fits dispatcher) (id : HandleId) {change : Handle σ → Handle σ}
    (kept : ∀ handle, (change handle).callbacks = handle.callbacks) :
    ∀ handle ∈ dispatcher.handles.modify id change, fits handle.callbacks := by
  intro handle member
  obtain ⟨index, present⟩ := List.mem_iff_getElem?.mp member
  rw [List.getElem?_modify] at present
  obtain ⟨old, there, changed⟩ := Option.map_eq_some_iff.mp present
  have before := wired.handles old (List.mem_of_getElem? there)
  split at changed
  · rw [← changed, kept]
    exact before
  · rw [← changed]
    exact before

omit [Inhabited σ] in
theorem pick (wired : Wired fits dispatcher) (txn : TxnId) :
    Wired fits (dispatcher.pick txn).dispatcher := by
  unfold Dispatcher.pick
  split
  · exact { wired with }
  · refine ⟨wired.wiring, fun handle member => ?_⟩
    rcases List.mem_append.mp member with old | fresh
    · exact wired.handles handle old
    · rw [List.mem_singleton.mp fresh]
      exact wired.wiring _

theorem bindRecord (wired : Wired fits dispatcher) (record : Transaction) (isSnoop : Bool) :
    Wired fits (dispatcher.bindRecord record isSnoop).dispatcher := by
  unfold Dispatcher.bindRecord
  split
  · exact ⟨wired.wiring, wired.modify _ (fun _ => rfl)⟩
  · have picked := wired.pick record.uid
    exact ⟨picked.wiring, picked.modify _ (fun _ => rfl)⟩

theorem advanceMachine (wired : Wired fits dispatcher)
    (found : dispatcher.bound? txn = some bound) (event : Phase) (next : State)
    (fired : List Phase) :
    Wired fits (dispatcher.advanceMachine txn bound event next fired).dispatcher := by
  obtain ⟨delayed, clocked, result⟩ := dispatcher.advanceMachine_eq txn bound event next fired
  rw [result]
  refine ⟨wired.wiring, fun handle member => ?_⟩
  rcases List.mem_or_eq_of_mem_set member with old | rfl
  · exact wired.handles handle old
  · exact wired.callbacks_of_bound? found

theorem react (wired : Wired fits dispatcher) (event : Phase) (txn : TxnId) :
    Wired fits (dispatcher.react event txn).dispatcher := by
  have reaction := dispatcher.react_reaction event txn
  generalize dispatcher.react event txn = outcome at reaction ⊢
  cases reaction with
  | unbound absent => exact wired
  | notified bound found early => exact wired.advanceMachine found _ _ _
  | refused bound found trigger given stuck => exact { wired with }
  | moved bound found trigger given move step busy => exact wired.advanceMachine found _ _ _
  | finished bound found trigger given move step finishes =>
      have moved := wired.advanceMachine found trigger move.next move.fired
      exact ⟨moved.wiring, moved.modify _ (fun _ => rfl)⟩

theorem lasting (fits : CallbackTable σ → Prop) :
    Lasting (fun dispatcher : Dispatcher σ => Wired fits dispatcher) where
  agenda := fun _ _ _ wired => { wired with }
  react := fun event txn wired => wired.react event txn

theorem perform (wired : Wired fits dispatcher) (operation : Operation) :
    Wired fits (dispatcher.perform operation) := by
  cases operation with
  | bind record isSnoop =>
      cases record with
      | some record => exact wired.bindRecord record isSnoop
      | none =>
          have numbered : Wired fits { dispatcher with snoops := dispatcher.snoops + 1 } :=
            { wired with }
          exact numbered.bindRecord (.forSnoop ⟨snoopBase + dispatcher.snoops⟩) isSnoop
  | react event txn => exact wired.react event txn
  | schedule request => exact (lasting fits).schedule wired request
  | advanceTo time budget => exact (lasting fits).advanceTo wired time budget
  | clockEdge => exact (lasting fits).clockEdge wired
  | drainFinished => exact { wired with }

theorem performAll (wired : Wired fits dispatcher) (operations : List Operation) :
    Wired fits (dispatcher.performAll operations) := by
  induction operations generalizing dispatcher with
  | nil => exact wired
  | cons first rest ih => exact ih (wired.perform first)

end Wired

structure WiredAlike (table : CallbackTable σ) (dispatcher : Dispatcher σ) : Prop where
  wiring : ∀ id, dispatcher.wiring id = table
  handles : ∀ handle ∈ dispatcher.handles, handle.callbacks = table

namespace WiredAlike

variable {table : CallbackTable σ}

omit [Inhabited σ] in
theorem iff_wired : WiredAlike table dispatcher ↔ Wired (· = table) dispatcher :=
  ⟨fun alike => ⟨alike.wiring, alike.handles⟩, fun wired => ⟨wired.wiring, wired.handles⟩⟩

omit [Inhabited σ] in
theorem new (config : EngineConfig) (table : CallbackTable σ) :
    WiredAlike table (.new config (fun _ => table)) :=
  iff_wired.mpr (.new config (fun _ => rfl))

theorem callbacks_of_bound? (alike : WiredAlike table dispatcher)
    (found : dispatcher.bound? txn = some bound) : bound.handle.callbacks = table :=
  (iff_wired.mp alike).callbacks_of_bound? found

theorem bindRecord (alike : WiredAlike table dispatcher) (record : Transaction)
    (isSnoop : Bool) : WiredAlike table (dispatcher.bindRecord record isSnoop).dispatcher :=
  iff_wired.mpr ((iff_wired.mp alike).bindRecord record isSnoop)

theorem advanceMachine (alike : WiredAlike table dispatcher)
    (found : dispatcher.bound? txn = some bound) (event : Phase) (next : State)
    (fired : List Phase) :
    WiredAlike table (dispatcher.advanceMachine txn bound event next fired).dispatcher :=
  iff_wired.mpr ((iff_wired.mp alike).advanceMachine found event next fired)

theorem react (alike : WiredAlike table dispatcher) (event : Phase) (txn : TxnId) :
    WiredAlike table (dispatcher.react event txn).dispatcher :=
  iff_wired.mpr ((iff_wired.mp alike).react event txn)

end WiredAlike

end Handshake.Dispatcher
