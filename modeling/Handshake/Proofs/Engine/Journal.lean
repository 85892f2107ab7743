import Handshake.Proofs.Engine.Operation
import Handshake.Proofs.Engine.Reaction
set_option autoImplicit false

/-! The journal of a run: what its calls did, in order. What holds of a dispatcher together
with all that was done so far is shown for one reaction and one binding, and then holds
along every run. -/

namespace Handshake

theorem CallbackTable.record_of_mem_calls {σ : Type} {table : CallbackTable σ}
    {fired : List Phase} {context called : Context σ}
    (member : called ∈ (table.run fired context).calls) : called.record = context.record := by
  induction fired generalizing context with
  | nil => cases member
  | cons phase rest ih =>
      unfold run at member
      split at member
      · exact ih member
      · rcases List.mem_cons.mp member with rfl | later
        · rfl
        · have same := ih later
          exact same

namespace Dispatcher

variable {σ : Type}

theorem mem_journal_advanceMachine {dispatcher : Dispatcher σ} {txn : TxnId}
    {bound : Bound σ} {event : Phase} {next : State} {fired : List Phase}
    {activity : Activity σ}
    (member : activity ∈ (dispatcher.advanceMachine txn bound event next fired).journal) :
    (∃ context, activity = .called context ∧ context.record = bound.record) ∨
      ∃ request, activity = .scheduled request := by
  simp only [advanceMachine, applyPending, List.mem_append, List.mem_map] at member
  rcases member with ⟨context, called, rfl⟩ | ⟨request, -, rfl⟩
  · exact .inl ⟨context, rfl, CallbackTable.record_of_mem_calls called⟩
  · exact .inr ⟨request, rfl⟩

variable [Inhabited σ]

def journal (dispatcher : Dispatcher σ) : Operation → List (Activity σ)
  | .bind record isSnoop => (dispatcher.bind record isSnoop).journal
  | .react event txn => (dispatcher.react event txn).journal
  | .advanceTo time budget => (dispatcher.advanceTo time budget).journal
  | .clockEdge => dispatcher.clockEdge.journal
  | .schedule _ | .drainFinished => []

def journalAll (dispatcher : Dispatcher σ) : List Operation → List (Activity σ)
  | [] => []
  | first :: rest => dispatcher.journal first ++ (dispatcher.perform first).journalAll rest

/-- A property of a dispatcher and of what was done so far, that every call keeps. -/
structure Kept (holds : List (Activity σ) → Dispatcher σ → Prop) : Prop
    extends Recorded holds where
  numbered : ∀ {journal : List (Activity σ)} {dispatcher : Dispatcher σ} snoops,
    holds journal dispatcher → holds journal { dispatcher with snoops }
  bindRecord : ∀ {journal : List (Activity σ)} {dispatcher : Dispatcher σ} record isSnoop,
    holds journal dispatcher →
      holds (journal ++ (dispatcher.bindRecord record isSnoop).journal)
        (dispatcher.bindRecord record isSnoop).dispatcher
  collected : ∀ {journal : List (Activity σ)} {dispatcher : Dispatcher σ} finished,
    holds journal dispatcher → holds journal { dispatcher with finished }

namespace Kept

variable {holds : List (Activity σ) → Dispatcher σ → Prop} {dispatcher : Dispatcher σ}
  {journal : List (Activity σ)}

private theorem perform (kept : Kept holds) (before : holds journal dispatcher)
    (operation : Operation) :
    holds (journal ++ dispatcher.journal operation) (dispatcher.perform operation) := by
  cases operation with
  | bind record isSnoop =>
      cases record with
      | some record => exact kept.bindRecord record isSnoop before
      | none =>
          exact kept.bindRecord _ isSnoop (kept.numbered (dispatcher.snoops + 1) before)
  | react event txn => exact kept.react event txn before
  | advanceTo time budget => exact kept.advanceTo journal before time budget
  | clockEdge => exact kept.clockEdge journal before
  | schedule request =>
      simp only [Dispatcher.journal, List.append_nil]
      exact kept.schedule journal before request
  | drainFinished =>
      simp only [Dispatcher.journal, List.append_nil]
      exact kept.collected [] before

theorem performAll (kept : Kept holds) (before : holds journal dispatcher)
    (operations : List Operation) :
    holds (journal ++ dispatcher.journalAll operations) (dispatcher.performAll operations) := by
  induction operations generalizing journal dispatcher with
  | nil =>
      simp only [journalAll, List.append_nil]
      exact before
  | cons first rest ih =>
      simp only [journalAll]
      rw [← List.append_assoc]
      exact ih (kept.perform before first)

end Kept

end Dispatcher

end Handshake
