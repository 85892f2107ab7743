import Mathlib.Logic.Hydra
import Handshake.Engine.Action
import Handshake.Proofs.Engine.Frame
import Handshake.Proofs.Engine.Splitting
set_option autoImplicit false

/-! Termination of delivery. Callbacks may put more on the delay queue while it is delivered, but
not without end if none of them asks for a phase after no delay at all. What a turn leaves to do
up to a time is measured by what is due by then: each entry weighs more than those that its
delivery may bring, which are due later or only move on to the cycle queue. A turn thus takes one
weight from a multiset and puts any number of smaller ones in its place. -/

namespace Handshake

/-! ### Callbacks that take their time -/

/-- No callback asks for a phase after no delay at all. The phases that wait for clock edges are
no matter. -/
def CallbackTable.Unhurried {σ : Type} (table : CallbackTable σ) : Prop :=
  ∀ slot callback, table.callback? slot = some callback →
    ∀ context, ∀ request ∈ (callback context).requests, request.2 ≠ .after 0

namespace CallbackTable.Unhurried

variable {σ : Type} {table : CallbackTable σ}

private theorem empty : (CallbackTable.empty : CallbackTable σ).Unhurried := by
  intro slot callback registered
  cases registered

private theorem set (unhurried : table.Unhurried) (phase : Phase) {callback : Callback σ}
    (later : ∀ context, ∀ request ∈ (callback context).requests, request.2 ≠ .after 0) :
    (table.set phase callback).Unhurried := by
  intro slot other registered
  unfold CallbackTable.set at registered
  split at registered
  · exact unhurried slot other registered
  · simp only at registered
    split at registered
    · cases registered
      exact later
    · exact unhurried slot other registered

private theorem run (unhurried : table.Unhurried) (fired : List Phase) (context : Context σ) :
    ∀ request ∈ (table.run fired context).requests, request.moment ≠ .after 0 := by
  induction fired generalizing context with
  | nil =>
      intro request member
      cases member
  | cons phase rest ih =>
      unfold CallbackTable.run
      cases set : table.at? phase with
      | none => exact ih context
      | some callback =>
          obtain ⟨slot, -, registered⟩ := Option.bind_eq_some_iff.mp set
          intro request member
          rcases List.mem_append.mp member with own | later
          · obtain ⟨asked, among, rfl⟩ := List.mem_map.mp own
            exact unhurried slot callback registered _ asked among
          · exact ih _ request later

end CallbackTable.Unhurried

/-! ### What is left to do -/

/-- An entry that is to be reacted to weighs more than one that is only to be moved on and is due
at the same time, and both weigh more than everything that is due later. -/
def Delayed.weight (time : Time) (entry : Delayed) : Nat :=
  2 * (time - entry.due) + if entry.sync then 0 else 1

def outstanding (time : Time) (entries : List Delayed) : Multiset Nat :=
  ((entries.filter (fun entry => entry.due ≤ time)).map (Delayed.weight time) : List Nat)

private theorem outstanding_append (time : Time) (left right : List Delayed) :
    outstanding time (left ++ right) = outstanding time left + outstanding time right := by
  simp only [outstanding, List.filter_append, List.map_append, ← Multiset.coe_add]

private theorem outstanding_of_perm (time : Time) {left right : List Delayed}
    (same : left.Perm right) :
    outstanding time left = outstanding time right :=
  Multiset.coe_eq_coe.mpr ((same.filter _).map _)

private theorem outstanding_singleton {time : Time} {entry : Delayed} (early : entry.due ≤ time) :
    outstanding time [entry] = {entry.weight time} := by
  simp [outstanding, early]

private theorem mem_outstanding_iff {time : Time} {entries : List Delayed} {weight : Nat} :
    weight ∈ outstanding time entries ↔
      ∃ entry ∈ entries, entry.due ≤ time ∧ entry.weight time = weight := by
  simp [outstanding, and_assoc]

private theorem exists_of_mem_posted {number : Nat} {chronicle : List Occurrence} {entry : Delayed}
    (member : entry ∈ posted number chronicle) :
    ∃ occurrence ∈ chronicle, occurrence.deferred? = some (entry.due, entry.toDeferred) := by
  obtain ⟨index, within, same⟩ := List.mem_mapIdx.mp member
  have put := List.mem_filterMap.mp (List.getElem_mem within)
  rw [← same]
  exact put

private theorem exists_of_mem_scheduledIn {σ : Type} {time : Time} {journal : List (Activity σ)}
    {occurrence : Occurrence} (member : occurrence ∈ scheduledIn time journal) :
    ∃ request, .scheduled request ∈ journal ∧ occurrence = .scheduled time request := by
  obtain ⟨request, among, rfl⟩ := List.mem_map.mp member
  obtain ⟨activity, present, asks⟩ := List.mem_filterMap.mp among
  cases activity with
  | scheduled other =>
      cases asks
      exact ⟨_, present, rfl⟩
  | allocated | recycled | notified | reacting | moved | called | finished => cases asks

private theorem due_of_deferred? {time due : Time} {request : Request} {deferred : Deferred}
    (put : Occurrence.deferred? (.scheduled time request) = some (due, deferred))
    (later : request.moment ≠ .after 0) : time + (if deferred.sync then 0 else 1) ≤ due := by
  obtain ⟨phase, txn, moment⟩ := request
  cases moment with
  | after delay =>
      cases put
      have positive : delay ≠ 0 := fun none => later (by rw [none])
      exact Nat.add_le_add_left (Nat.pos_of_ne_zero positive) time
  | afterSync delay =>
      cases put
      exact Nat.le_add_right time delay
  | cycles count => cases put

private theorem Delayed.weight_lt {time : Time} {turned brought : Delayed}
    (reacts : turned.sync = false) (early : brought.due ≤ time)
    (later : turned.due + (if brought.sync then 0 else 1) ≤ brought.due) :
    brought.weight time < turned.weight time := by
  have lighter : ∀ last first due extra : Nat, extra ≤ 1 → due ≤ last → first + extra ≤ due →
      2 * (last - due) + extra < 2 * (last - first) + 1 := by omega
  have extra : (if brought.sync then 0 else 1) ≤ 1 := by split <;> decide
  rw [weight, weight, reacts]
  exact lighter time turned.due brought.due _ extra early later

namespace Dispatcher

variable {σ : Type} [Inhabited σ] {dispatcher : Dispatcher σ} {bindings : Nat} {time : Time}
  {turn : Turn σ}

/-! ### A turn -/

private theorem Lasting.takeTurn {holds : Dispatcher σ → Prop} (lasting : Lasting holds)
    (before : holds dispatcher) (due : dispatcher.turn? time = some turn) :
    holds turn.dispatcher ∧ holds turn.outcome.dispatcher := by
  obtain ⟨rest, -, reached⟩ := turn?_eq_some_iff.mp due
  have taken : holds turn.dispatcher := by
    rw [reached]
    exact lasting.agenda _ _ _ before
  exact ⟨taken, lasting.deliver taken turn.entry.toDeferred⟩

omit [Inhabited σ] in
private theorem due_le_now_of_turn? (due : dispatcher.turn? time = some turn) :
    turn.entry.due ≤ turn.dispatcher.now := by
  obtain ⟨rest, -, reached⟩ := turn?_eq_some_iff.mp due
  rw [reached]
  exact Nat.le_max_right _ _

private theorem moment_of_mem_advanceMachine (sound : Sound bindings dispatcher)
    (wired : Wired CallbackTable.Unhurried dispatcher) {txn : TxnId} {bound : Bound σ}
    (found : dispatcher.bound? txn = some bound) {event : Phase} {next : State}
    {fired : List Phase} {request : Request} (asked : .scheduled request ∈
      (dispatcher.advanceMachine txn bound event next fired).journal) :
    request.moment ≠ .after 0 := by
  rw [dispatcher.journal_advanceMachine txn bound event next fired sound.settled] at asked
  have own : request ∈ (dispatcher.runOf bound event fired).requests := by
    simpa using asked
  exact (wired.callbacks_of_bound? found).run fired _ request own

private theorem moment_of_mem_react (sound : Sound bindings dispatcher)
    (wired : Wired CallbackTable.Unhurried dispatcher) {event : Phase} {txn : TxnId}
    {request : Request} (asked : .scheduled request ∈ (dispatcher.react event txn).journal) :
    request.moment ≠ .after 0 := by
  have reaction := dispatcher.react_reaction event txn
  generalize dispatcher.react event txn = outcome at reaction asked
  cases reaction with
  | unbound absent => cases asked
  | refused bound found trigger given stuck => simp at asked
  | notified bound found early =>
      exact moment_of_mem_advanceMachine sound wired found (by simpa using asked)
  | moved bound found trigger given move step busy =>
      exact moment_of_mem_advanceMachine sound wired found (by simpa using asked)
  | finished bound found trigger given move step finishes =>
      exact moment_of_mem_advanceMachine sound wired found (by simpa using asked)

private theorem weight_lt_of_mem_posted (sound : Sound bindings dispatcher)
    (wired : Wired CallbackTable.Unhurried dispatcher) (due : dispatcher.turn? time = some turn)
    {brought : Delayed} (member : brought ∈ posted dispatcher.delayed.pushed turn.chronicle)
    (early : brought.due ≤ time) : brought.weight time < turn.entry.weight time := by
  obtain ⟨occurrence, present, put⟩ := exists_of_mem_posted member
  rcases List.mem_cons.mp present with rfl | scheduled
  · cases put
  · obtain ⟨request, asked, rfl⟩ := exists_of_mem_scheduledIn scheduled
    rw [Turn.outcome, deliver] at asked
    cases sync : turn.entry.sync with
    | true =>
        -- an entry that waits for a clock edge is moved on, which brings nothing
        rw [sync, if_pos rfl] at asked
        cases asked
    | false =>
        rw [sync, if_neg Bool.false_ne_true] at asked
        have soundThen := ((Sound.lasting bindings).takeTurn sound due).1
        have wiredThen := ((Wired.lasting _).takeTurn wired due).1
        have later := due_of_deferred? put (moment_of_mem_react soundThen wiredThen asked)
        refine Delayed.weight_lt sync early (Nat.le_trans ?_ later)
        exact Nat.add_le_add_right (due_le_now_of_turn? due) _

/-- A turn takes the weight of its entry away and brings only smaller ones. -/
theorem cutExpand_turn (sound : Sound bindings dispatcher)
    (wired : Wired CallbackTable.Unhurried dispatcher) (due : dispatcher.turn? time = some turn) :
    Relation.CutExpand (· < ·) (outstanding time turn.outcome.dispatcher.delayed.entries)
      (outstanding time dispatcher.delayed.entries) := by
  have kept := outstanding_of_perm time (path_turn due).conserves.1
  rw [departed_chronicle_turn, outstanding_append, outstanding_append,
    outstanding_singleton (due_le_of_turn? due), add_comm] at kept
  refine ⟨_, _, fun weight member => ?_, kept⟩
  obtain ⟨brought, present, early, rfl⟩ := mem_outstanding_iff.mp member
  exact weight_lt_of_mem_posted sound wired due present early

/-! ### A call -/

private theorem exists_finished (sound : Sound bindings dispatcher)
    (wired : Wired CallbackTable.Unhurried dispatcher) (time : Time) :
    ∃ budget, (dispatcher.advanceTo time budget).answer ≠ .error .unfinished := by
  -- a turn may bring any number of entries, so no count of them goes down, but this does
  have descends : WellFounded (InvImage (Relation.CutExpand (· < ·))
      (fun dispatcher : Dispatcher σ => outstanding time dispatcher.delayed.entries)) :=
    InvImage.wf _ wellFounded_lt.cutExpand
  induction dispatcher using descends.induction with
  | _ dispatcher ih =>
      cases due : dispatcher.turn? time with
      | none =>
          refine ⟨0, ?_⟩
          rw [advanceTo_of_turn?_eq_none due]
          exact nofun
      | some turn =>
          cases answer : turn.outcome.answer with
          | error error =>
              refine ⟨1, ?_⟩
              rw [advanceTo_succ_of_error due answer]
              exact nofun
          | ok reacted =>
              obtain ⟨budget, finished⟩ := ih turn.outcome.dispatcher
                (cutExpand_turn sound wired due) ((Sound.lasting bindings).takeTurn sound due).2
                ((Wired.lasting _).takeTurn wired due).2
              refine ⟨budget + 1, ?_⟩
              rw [advanceTo_succ_of_ok due answer]
              exact fun unfinished => finished (map_eq_unfinished_iff.mp unfinished)

/-- After every run of calls, failed ones among them, and however many phases callbacks put off:
if none of them is put off by no delay at all, moving time ends. -/
theorem endsIn_advanceTo_of_unhurried (config : EngineConfig)
    {wiring : HandleId → CallbackTable σ} (unhurried : ∀ id, (wiring id).Unhurried)
    (operations : List Operation) (time : Time) :
    ∃ outcome, EndsIn (fun budget =>
      ((new config wiring).performAll operations).advanceTo time budget) outcome := by
  have sound := (sound_new config wiring).performAll operations
  have wired := (Wired.new config unhurried).performAll operations
  obtain ⟨budget, finished⟩ := exists_finished sound wired time
  exact ⟨_, endsIn_advanceTo finished⟩

def responding (_ : HandleId) : CallbackTable Nat :=
  (CallbackTable.empty.set .beginRequest
      (Callback.ofActions [.schedule .endRequest (.after 3)])).set .endRequest
    (Callback.ofActions
      [.schedule .beginResponse (.afterSync 0), .schedule .beginResponse (.after 1)])

theorem endsIn_advanceTo_of_responding :
    (∀ id, (responding id).Unhurried) ∧
      ∃ outcome, EndsIn (fun budget =>
        ((new {} responding).performAll
          [.bind (some (.plain ⟨0⟩ .read)) false,
            .schedule ⟨.beginRequest, ⟨0⟩, .after 0⟩]).advanceTo 10 budget) outcome := by
  have unhurried : ∀ id, (responding id).Unhurried := by
    intro id
    refine (CallbackTable.Unhurried.empty.set _ ?_).set _ ?_
    · intro context request member
      cases List.mem_singleton.mp member
      exact nofun
    · intro context request member
      rcases List.mem_pair.mp member with rfl | rfl <;> exact nofun
  exact ⟨unhurried, endsIn_advanceTo_of_unhurried {} unhurried _ 10⟩

end Dispatcher

end Handshake
