import Mathlib.Data.List.Basic
import Handshake.Engine.Action
import Handshake.Proofs.Engine.Chronicle
import Handshake.Proofs.Engine.Frame
set_option autoImplicit false

/-! Transactions do not interfere. A call for one transaction leaves every other as it was. What
the reactions of a transaction answer, call and schedule is therefore the same as if its calls had
been made alone, on a new dispatcher: the handles that it is bound to may be others, and may have
served others before, but nothing of what the callbacks do depends on that. -/

namespace Handshake

/-! ### Callbacks on any handle -/

section

variable {σ : Type}

/-- No callback of the table does anything else on another handle. -/
def CallbackTable.Portable (table : CallbackTable σ) : Prop :=
  ∀ slot callback, table.callback? slot = some callback →
    ∀ context handle, callback { context with handle } = callback context

private theorem CallbackTable.Portable.run_eq {table : CallbackTable σ} (portable : table.Portable)
    (phases : List Phase) (context : Context σ) (handle : HandleId) :
    table.run phases { context with handle } =
      ⟨{ (table.run phases context).context with handle },
        (table.run phases context).calls.map (fun called => { called with handle }),
        (table.run phases context).requests⟩ := by
  induction phases generalizing context with
  | nil => rfl
  | cons phase rest ih =>
      simp only [CallbackTable.run]
      cases found : table.at? phase with
      | none => exact ih context
      | some callback =>
          obtain ⟨slot, -, registered⟩ := Option.bind_eq_some_iff.mp found
          have same := portable slot callback registered { context with phase } handle
          simp only [same]
          rw [ih { context with
            phase
            beats := (callback { context with phase }).beats
            scratch := (callback { context with phase }).scratch }]
          rfl

def CallbackTable.ofActions (actions : Slot → Option (List Action)) : CallbackTable Nat :=
  ⟨fun slot => (actions slot).map Callback.ofActions⟩

private theorem CallbackTable.portable_ofActions (actions : Slot → Option (List Action)) :
    (ofActions actions).Portable := by
  intro slot callback registered context handle
  obtain ⟨fixed, -, rfl⟩ := Option.map_eq_some_iff.mp registered
  rfl

/-! ### What is told of a transaction -/

/-- What an activity tells, apart from the handle that it happened on. -/
def Activity.unplaced : Activity σ → Activity σ
  | .allocated _ poolSize => .allocated 0 poolSize
  | .recycled _ txn => .recycled 0 txn
  | .called context => .called { context with handle := 0 }
  | .finished txn _ => .finished txn 0
  | other => other

namespace Dispatcher

def Bound.unplaced (bound : Bound σ) : Bound σ := { bound with id := 0 }

variable [Inhabited σ]

def standing (dispatcher : Dispatcher σ) (txn : TxnId) : Option (Bound σ) :=
  (dispatcher.bound? txn).map Bound.unplaced

private theorem standing_ensureScratch (dispatcher : Dispatcher σ) (txn other : TxnId) :
    (dispatcher.ensureScratch txn).standing other = dispatcher.standing other :=
  congrArg (Option.map Bound.unplaced) (dispatcher.bound?_ensureScratch txn other)

end Dispatcher

/-- What a reaction answers, what happens in its course, and what its transaction has after it,
apart from handles. -/
structure Account (σ : Type) where
  answer : Except EngineError Unit
  journal : List (Activity σ)
  standing : Option (Dispatcher.Bound σ)

inductive Exchange where
  | bind (record : Transaction) (isSnoop : Bool)
  | react (event : Phase) (txn : TxnId)

namespace Exchange

def subject : Exchange → TxnId
  | bind record _ => record.uid
  | react _ txn => txn

def operation : Exchange → Operation
  | bind record isSnoop => .bind (some record) isSnoop
  | react event txn => .react event txn

end Exchange

namespace Dispatcher

variable [Inhabited σ]

def account (dispatcher : Dispatcher σ) (event : Phase) (txn : TxnId) : Account σ :=
  let reaction := dispatcher.react event txn
  ⟨reaction.answer, reaction.journal.map .unplaced, reaction.dispatcher.standing txn⟩

def accounts (txn : TxnId) : List Exchange → Dispatcher σ → List (Account σ)
  | [], _ => []
  | .bind record isSnoop :: rest, dispatcher =>
      accounts txn rest (dispatcher.perform (.bind (some record) isSnoop))
  | .react event other :: rest, dispatcher =>
      (if other = txn then [dispatcher.account event txn] else []) ++
        accounts txn rest (dispatcher.perform (.react event other))

/-! ### Other transactions -/

variable {bindings : Nat} {dispatcher left right : Dispatcher σ} {txn other : TxnId}
  {bound : Bound σ} {table : CallbackTable σ}

private theorem bound?_perform_of_ne (sound : Sound bindings dispatcher) (exchange : Exchange)
    (different : other ≠ exchange.subject) :
    (dispatcher.perform exchange.operation).bound? other = dispatcher.bound? other := by
  cases exchange with
  | bind record isSnoop => exact bound?_bindRecord_of_ne sound record isSnoop different
  | react event txn => exact bound?_react_of_ne sound event different

private theorem now_perform_operation (dispatcher : Dispatcher σ) (exchange : Exchange) :
    (dispatcher.perform exchange.operation).now = dispatcher.now := by
  cases exchange with
  | bind record isSnoop => exact congrArg Agenda.now (dispatcher.agenda_bindRecord record isSnoop)
  | react event txn => exact (dispatcher.path_react event txn).2

/-! ### The same transaction on two dispatchers -/

structure Ready (table : CallbackTable σ) (dispatcher : Dispatcher σ) : Prop where
  sound : ∃ bindings, Sound bindings dispatcher
  wired : WiredAlike table dispatcher

private theorem Ready.perform (ready : Ready table dispatcher) (exchange : Exchange) :
    Ready table (dispatcher.perform exchange.operation) := by
  obtain ⟨bindings, sound⟩ := ready.sound
  refine ⟨⟨_, sound.perform exchange.operation⟩, ?_⟩
  cases exchange with
  | bind record isSnoop => exact ready.wired.bindRecord record isSnoop
  | react event txn => exact ready.wired.react event txn

/-- Two dispatchers between which a transaction sees no difference. -/
structure Alike (txn : TxnId) (left right : Dispatcher σ) : Prop where
  config : left.config = right.config
  now : left.now = right.now
  standing : left.standing txn = right.standing txn

namespace Alike

private theorem bound?_eq_none (alike : Alike txn left right) (absent : left.bound? txn = none) :
    right.bound? txn = none := by
  have same := alike.standing
  rw [Dispatcher.standing, absent] at same
  exact Option.map_eq_none_iff.mp same.symm

private theorem exists_bound? (alike : Alike txn left right)
    (found : left.bound? txn = some bound) :
    ∃ id, right.bound? txn = some { bound with id } := by
  have same := alike.standing
  rw [Dispatcher.standing, found] at same
  obtain ⟨⟨id, handle, record, scratch⟩, there, equal⟩ := Option.map_eq_some_iff.mp same.symm
  cases bound
  cases equal
  exact ⟨id, there⟩

variable {id : HandleId}

private theorem runOf_eq (alike : Alike txn left right) (portable : table.Portable)
    (wired : bound.handle.callbacks = table) (id : HandleId) (event : Phase)
    (fired : List Phase) :
    right.runOf { bound with id } event fired =
      ⟨{ (left.runOf bound event fired).context with handle := id },
        (left.runOf bound event fired).calls.map (fun called => { called with handle := id }),
        (left.runOf bound event fired).requests⟩ := by
  have context : right.contextOf { bound with id } event =
      { left.contextOf bound event with handle := id } := by
    simp only [contextOf, alike.now]
  simp only [runOf, context, wired]
  exact portable.run_eq fired (left.contextOf bound event) id

private theorem advanceMachine (alike : Alike txn left right) (portable : table.Portable)
    (leftReady : Ready table left) (rightReady : Ready table right)
    (found : left.bound? txn = some bound) (foundRight : right.bound? txn = some { bound with id })
    (event : Phase) (next : State) (fired : List Phase) :
    (left.advanceMachine txn bound event next fired).journal.map Activity.unplaced =
        (right.advanceMachine txn { bound with id } event next fired).journal.map
          Activity.unplaced ∧
      (left.advanceMachine txn bound event next fired).dispatcher.standing txn =
        (right.advanceMachine txn { bound with id } event next fired).dispatcher.standing txn := by
  obtain ⟨leftBindings, leftSound⟩ := leftReady.sound
  obtain ⟨rightBindings, rightSound⟩ := rightReady.sound
  have wired := leftReady.wired.callbacks_of_bound? found
  have runs := alike.runOf_eq portable wired id event fired
  constructor
  · rw [journal_advanceMachine _ _ _ _ _ _ leftSound.settled,
      journal_advanceMachine _ _ _ _ _ _ rightSound.settled, runs]
    simp only [List.map_append, List.map_map]
    rfl
  · simp only [Dispatcher.standing, bound?_advanceMachine_self found,
      bound?_advanceMachine_self foundRight, handleAfter, runs]
    rfl

private theorem account_eq (alike : Alike txn left right) (portable : table.Portable)
    (leftReady : Ready table left) (rightReady : Ready table right) (event : Phase) :
    left.account event txn = right.account event txn := by
  cases found : left.bound? txn with
  | none =>
      have absent := alike.bound?_eq_none found
      simp only [account, react, found, absent, alike.standing]
  | some bound =>
      obtain ⟨id, foundRight⟩ := alike.exists_bound? found
      have advances := alike.advanceMachine portable leftReady rightReady found foundRight
      cases given : bound.handle.trigger? left.config event with
      | none =>
          obtain ⟨journal, standing⟩ := advances event bound.handle.state [event]
          have givenRight := given
          rw [alike.config] at givenRight
          simp only [account, react, found, foundRight, given, givenRight, List.map_cons, journal,
            standing]
      | some trigger =>
          have givenRight := given
          rw [alike.config] at givenRight
          cases step : bound.handle.state.step trigger with
          | none =>
              simp only [account, react, found, foundRight, given, givenRight, step,
                standing_ensureScratch, alike.standing]
          | some move =>
              obtain ⟨journal, standing⟩ := advances trigger move.next move.fired
              by_cases finishes : move.next = .idle
              · simp only [account, react, found, foundRight, given, givenRight, step,
                  if_pos finishes, List.map_append, List.map_cons, journal, Dispatcher.standing,
                  bound?_retire_self]
                rfl
              · simp only [account, react, found, foundRight, given, givenRight, step,
                  if_neg finishes, List.map_cons, journal, standing]

private theorem react (alike : Alike txn left right) (portable : table.Portable)
    (leftReady : Ready table left) (rightReady : Ready table right) (event : Phase) :
    Alike txn (left.perform (.react event txn)) (right.perform (.react event txn)) where
  config := by rw [config_perform, config_perform, alike.config]
  now := (left.now_perform_operation (.react event txn)).trans
    (alike.now.trans (right.now_perform_operation (.react event txn)).symm)
  standing :=
    congrArg Account.standing (alike.account_eq portable leftReady rightReady event)

private theorem bind {record : Transaction} (alike : Alike record.uid left right)
    (leftReady : Ready table left) (rightReady : Ready table right) (isSnoop : Bool) :
    Alike record.uid (left.perform (.bind (some record) isSnoop))
      (right.perform (.bind (some record) isSnoop)) where
  config := by rw [config_perform, config_perform, alike.config]
  now := (left.now_perform_operation (.bind record isSnoop)).trans
    (alike.now.trans (right.now_perform_operation (.bind record isSnoop)).symm)
  standing := by
    simp only [perform, Dispatcher.bind, Dispatcher.standing]
    cases found : left.bound? record.uid with
    | some bound =>
        obtain ⟨id, foundRight⟩ := alike.exists_bound? found
        rw [bound?_bindRecord_of_bound found, bound?_bindRecord_of_bound foundRight, alike.now]
        rfl
    | none =>
        obtain ⟨leftBindings, leftSound⟩ := leftReady.sound
        obtain ⟨rightBindings, rightSound⟩ := rightReady.sound
        obtain ⟨leftId, leftCallbacks, bindsLeft⟩ := bound?_bindRecord_of_inactive leftSound record
          isSnoop (leftSound.inactive_of_bound?_eq_none found)
        obtain ⟨rightId, rightCallbacks, bindsRight⟩ := bound?_bindRecord_of_inactive rightSound
          record isSnoop (rightSound.inactive_of_bound?_eq_none (alike.bound?_eq_none found))
        have leftWired : leftCallbacks = table :=
          (leftReady.wired.bindRecord record isSnoop).callbacks_of_bound? bindsLeft
        have rightWired : rightCallbacks = table :=
          (rightReady.wired.bindRecord record isSnoop).callbacks_of_bound? bindsRight
        rw [bindsLeft, bindsRight, leftWired, rightWired, alike.now]
        rfl

private theorem perform_of_ne (alike : Alike txn left right) (ready : Ready table left)
    (exchange : Exchange) (different : txn ≠ exchange.subject) :
    Alike txn (left.perform exchange.operation) right where
  config := by rw [config_perform, alike.config]
  now := (left.now_perform_operation exchange).trans alike.now
  standing := by
    obtain ⟨bindings, sound⟩ := ready.sound
    rw [Dispatcher.standing, bound?_perform_of_ne sound exchange different]
    exact alike.standing

private theorem accounts_eq (alike : Alike txn left right) (portable : table.Portable)
    (leftReady : Ready table left) (rightReady : Ready table right) (exchanges : List Exchange) :
    left.accounts txn exchanges =
      right.accounts txn (exchanges.filter (fun exchange => exchange.subject = txn)) := by
  induction exchanges generalizing left right with
  | nil => rfl
  | cons first rest ih =>
      -- an own call is made on both, a call of another transaction on the left only
      by_cases own : first.subject = txn
      · rw [List.filter_cons_of_pos (by simpa using own)]
        subst own
        have later := @ih (left.perform first.operation) (right.perform first.operation)
        cases first with
        | bind record isSnoop =>
            exact later (alike.bind leftReady rightReady isSnoop)
              (leftReady.perform (.bind record isSnoop)) (rightReady.perform (.bind record isSnoop))
        | react event txn =>
            have same := alike.account_eq portable leftReady rightReady event
            simp only [Exchange.subject] at same
            simp only [accounts, Exchange.subject, if_true, same]
            exact congrArg _ (later (alike.react portable leftReady rightReady event)
              (leftReady.perform (.react event txn)) (rightReady.perform (.react event txn)))
      · rw [List.filter_cons_of_neg (by simpa using own)]
        have later := ih (alike.perform_of_ne leftReady first (Ne.symm own))
          (leftReady.perform first) rightReady
        cases first with
        | bind record isSnoop => exact later
        | react event other =>
            simp only [accounts, if_neg (show other ≠ txn from own), List.nil_append]
            exact later

end Alike

omit [Inhabited σ] in
private theorem ready_new (config : EngineConfig) (table : CallbackTable σ) :
    Ready table (new config (fun _ => table)) :=
  ⟨⟨0, sound_new config _⟩, .new config table⟩

private theorem Ready.performAll (ready : Ready table dispatcher) (exchanges : List Exchange) :
    Ready table (dispatcher.performAll (exchanges.map Exchange.operation)) := by
  induction exchanges generalizing dispatcher with
  | nil => exact ready
  | cons first rest ih => exact ih (ready.perform first)

end Dispatcher

end

namespace Dispatcher

/-- With the same fixed actions on every handle, and after any calls, a call for one transaction
leaves every other with the handle, the record, the state of the machine, the beats, the snoop
flag, the start time and the scratch value that it had; and what is told of a transaction's
reactions is what would be told had its calls been made alone on a new dispatcher. -/
theorem accounts_new_eq_alone (config : EngineConfig) (actions : Slot → Option (List Action))
    (exchanges : List Exchange) :
    (∀ (exchange : Exchange) (other : TxnId), other ≠ exchange.subject →
        (((new config (fun _ => .ofActions actions)).performAll
            (exchanges.map Exchange.operation)).perform exchange.operation).bound? other =
          ((new config (fun _ => .ofActions actions)).performAll
            (exchanges.map Exchange.operation)).bound? other) ∧
      ∀ txn, (new config (fun _ => .ofActions actions)).accounts txn exchanges =
        (new config (fun _ => .ofActions actions)).accounts txn
          (exchanges.filter (fun exchange => exchange.subject = txn)) := by
  have ready := ready_new config (.ofActions actions)
  constructor
  · intro exchange other different
    obtain ⟨bindings, sound⟩ := (ready.performAll exchanges).sound
    exact bound?_perform_of_ne sound exchange different
  · intro txn
    have alike : Alike txn (new config (fun _ => .ofActions actions))
        (new config (fun _ => .ofActions actions)) := ⟨rfl, rfl, rfl⟩
    exact alike.accounts_eq (CallbackTable.portable_ofActions actions) ready ready exchanges

example :
    let actions : Slot → Option (List Action) := fun _ => some [.addBeats 1, .addScratch 5]
    let reads : List Exchange :=
      [.bind (.plain ⟨0⟩ .read) false, .react .beginRequest ⟨0⟩, .react .beginResponse ⟨0⟩,
        .react .endResponse ⟨0⟩, .bind (.plain ⟨1⟩ .read) false, .react .beginRequest ⟨1⟩]
    let dispatcher : Dispatcher Nat := new {} (fun _ => .ofActions actions)
    (dispatcher.accounts ⟨0⟩ reads).map (fun account => account.standing.map Bound.scratch) =
        [some 10, some 20, none] ∧
      (dispatcher.accounts ⟨1⟩ reads).map (fun account => account.standing.map Bound.scratch) =
        [some 10] ∧
      ((dispatcher.performAll (reads.map Exchange.operation)).bound? ⟨1⟩).map Bound.id =
        some 0 := by
  exact ⟨rfl, rfl, rfl⟩

end Dispatcher

end Handshake
