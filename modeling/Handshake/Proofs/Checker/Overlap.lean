import Handshake.Proofs.Checker.FirstBeat
set_option autoImplicit false

/-! Overlapping request bursts. A tracker keeps one burst in flight for a command. A burst that
starts meanwhile is reported and never becomes the burst in flight itself, so a later start is
reported only while the burst that was not reported goes on. -/

namespace Handshake

namespace History

/-- A matched beginning of the request came since its last matched end. -/
def BurstInProgress (history : History) (command : Command) (txn : TxnId) : Prop :=
  ∃ phase ∈ history.since command txn .endRequest,
    phase = .beginPartialRequest ∨ phase = .beginRequest

/-- An event begins a request beat, with no beat open and no burst of its transaction in
progress. -/
def StartsBurst (before : History) (event : Observation) : Prop :=
  (event.phase = .beginPartialRequest ∨ event.phase = .beginRequest) ∧
    before.FindsOpen event ∧ ¬ before.BurstInProgress event.record.command event.record.uid

def EndsBurst (before : History) (event : Observation) (command : Command) (txn : TxnId) : Prop :=
  event.phase = .endRequest ∧ before.FindsOpen event ∧ event.record.command = command ∧
    event.record.uid = txn

instance (history : History) (command : Command) (txn : TxnId) :
    Decidable (history.BurstInProgress command txn) :=
  inferInstanceAs (Decidable (∃ phase ∈ history.since command txn .endRequest, _))

instance (before : History) (event : Observation) : Decidable (before.StartsBurst event) :=
  inferInstanceAs (Decidable (_ ∧ _ ∧ _))

instance (before : History) (event : Observation) (command : Command) (txn : TxnId) :
    Decidable (before.EndsBurst event command txn) :=
  inferInstanceAs (Decidable (_ ∧ _ ∧ _ ∧ _))

variable {before history : History} {event : Observation} {command : Command} {txn : TxnId}

private theorem enters_request_iff :
    before.Enters event .request ↔
      before.StartsBurst event ∧
        .endPartialRequest ∉ before.since event.record.command event.record.uid .endRequest := by
  constructor
  · rintro ⟨begins, on, finds, fresh⟩
    refine ⟨⟨Phase.begins_of_isRequest (Phase.isRequest_of_side? on) begins, finds, ?_⟩,
      fun stray => fresh _ stray rfl⟩
    rintro ⟨phase, member, rfl | rfl⟩
    · exact fresh _ member rfl
    · exact fresh _ member rfl
  · rintro ⟨⟨begins, finds, idle⟩, unended⟩
    refine ⟨by rcases begins with own | own <;> rw [own] <;> rfl,
      by rcases begins with own | own <;> rw [own] <;> rfl, finds, fun phase member on => ?_⟩
    cases phase with
    | beginPartialRequest => exact idle ⟨_, member, .inl rfl⟩
    | beginRequest => exact idle ⟨_, member, .inr rfl⟩
    | endPartialRequest => exact unended member
    | endRequest => exact last_not_mem_since member
    | _ => cases on

private theorem BurstInProgress.append_singleton (progress : before.BurstInProgress command txn)
    (unended : ¬ before.EndsBurst event command txn) :
    (before ++ [event]).BurstInProgress command txn := by
  obtain ⟨phase, member, begins⟩ := progress
  refine ⟨phase, ?_, begins⟩
  rw [since_append_singleton]
  split
  · rename_i own
    have notLast : event.phase ≠ .endRequest := fun ends => unended ⟨ends, own⟩
    rw [if_neg notLast]
    exact List.mem_append_left _ member
  · exact member

private theorem Enters.burstInProgress (enters : before.Enters event .request) :
    (before ++ [event]).BurstInProgress event.record.command event.record.uid := by
  obtain ⟨⟨begins, finds, -⟩, -⟩ := enters_request_iff.mp enters
  refine ⟨event.phase, ?_, begins⟩
  have notLast : event.phase ≠ .endRequest := by
    rcases begins with own | own <;> rw [own] <;> exact Phase.noConfusion
  rw [since_append_singleton, if_pos ⟨finds, rfl, rfl⟩, if_neg notLast]
  exact List.mem_append_right _ (List.mem_singleton_self _)

end History

namespace Checker

/-- A burst is in flight from a beginning that was not reported on, up to the matched end of its
owner's request. -/
inductive InFlight (config : CheckerConfig) (command : Command) : History → Burst → Prop where
  | opened {before : History} {event : Observation} (enters : before.Enters event .request)
      (on : event.record.command = command)
      (unreported : foundOfKind .ordering config before event = []) :
      InFlight config command (before ++ [event]) ⟨event.record.axiId, event.record.uid⟩
  | kept {before : History} {event : Observation} {burst : Burst}
      (flight : InFlight config command before burst)
      (unended : ¬ before.EndsBurst event command burst.owner) :
      InFlight config command (before ++ [event]) burst

variable {config : CheckerConfig} {command : Command} {before history : History}
  {event : Observation} {burst : Burst}

private theorem not_inFlight_nil : ¬ InFlight config command [] burst := by
  intro flight
  generalize empty : ([] : History) = history at flight
  cases flight with
  | opened => simp at empty
  | kept => simp at empty

private theorem inFlight_append_singleton :
    InFlight config command (before ++ [event]) burst ↔
      (before.Enters event .request ∧ event.record.command = command ∧
          foundOfKind .ordering config before event = [] ∧
            burst = ⟨event.record.axiId, event.record.uid⟩) ∨
        (InFlight config command before burst ∧
          ¬ before.EndsBurst event command burst.owner) := by
  constructor
  · intro flight
    generalize split : before ++ [event] = history at flight
    cases flight with
    | opened enters on unreported =>
        obtain ⟨rfl, same⟩ := List.append_inj' split rfl
        cases same
        exact .inl ⟨enters, on, unreported, rfl⟩
    | kept flight unended =>
        obtain ⟨rfl, same⟩ := List.append_inj' split rfl
        cases same
        exact .inr ⟨flight, unended⟩
  · rintro (⟨enters, on, unreported, rfl⟩ | ⟨flight, unended⟩)
    · exact .opened enters on unreported
    · exact .kept flight unended

private theorem InFlight.burstInProgress (flight : InFlight config command history burst) :
    history.BurstInProgress command burst.owner := by
  induction flight with
  | opened enters on unreported =>
      subst on
      exact enters.burstInProgress
  | kept flight unended ih => exact ih.append_singleton unended

private theorem InFlight.owner_ne (flight : InFlight config event.record.command before burst)
    (starts : before.StartsBurst event) : burst.owner ≠ event.record.uid := by
  intro own
  apply starts.2.2
  rw [← own]
  exact flight.burstInProgress

/-! ### The burst that a tracker remembers -/

private theorem openBurst_ruling_iff_of_not_enters (config : CheckerConfig)
    (outside : ¬ before.Enters event .request) :
    (ruling config before event).tracker.openBurst = some burst ↔
      (trackerOf config before event.record.command).openBurst = some burst ∧
        ¬ before.EndsBurst event event.record.command burst.owner := by
  by_cases finds : before.FindsOpen event
  · have inPlace := (findsOpen_iff_inPlace config before event).mp finds
    by_cases ends : event.phase = .endRequest
    · rw [ends] at inPlace
      rw [ruling, ends, Tracker.openBurst_observe_endRequest inPlace, Option.filter_eq_some_iff,
        decide_eq_true_iff]
      exact and_congr_right (fun _ => not_congr
        ⟨fun own => ⟨ends, finds, rfl, own.symm⟩, fun ended => ended.2.2.2.symm⟩)
    · have counted : event.phase = .beginPartialRequest ∨ event.phase = .beginRequest →
          ((trackerOf config before event.record.command).requestBeats.get?
            event.record.uid).isSome = true := by
        intro begins
        rw [Option.isSome_iff_ne_none]
        intro uncounted
        refine outside ((enters_iff_uncounted config ?_ ?_ finds).mpr uncounted)
        · rcases begins with own | own <;> rw [own] <;> rfl
        · rcases begins with own | own <;> rw [own] <;> rfl
      rw [ruling, Tracker.openBurst_observe_of_counted inPlace counted ends]
      simp [History.EndsBurst, ends]
  · obtain ⟨_, _, breach, same, -⟩ := ruling_of_not_findsOpen config finds
    rw [same]
    simp [History.EndsBurst, finds]

private theorem openBurst_ruling_of_enters (config : CheckerConfig)
    (enters : before.Enters event .request) :
    (ruling config before event).tracker.openBurst =
      some (((trackerOf config before event.record.command).openBurst.filter
        (fun burst => burst.owner ≠ event.record.uid)).getD
          ⟨event.record.axiId, event.record.uid⟩) :=
  Tracker.openBurst_observe_of_uncounted ((findsOpen_iff_inPlace config _ _).mp enters.2.2.1)
    (Phase.begins_of_isRequest (Phase.isRequest_of_side? enters.2.1) enters.1)
    (uncounted_of_enters config enters)

/-- The tracker of a command remembers the burst in flight. -/
theorem openBurst_trackerOf_iff (config : CheckerConfig) (history : History) (command : Command)
    (burst : Burst) :
    (trackerOf config history command).openBurst = some burst ↔
      InFlight config command history burst := by
  induction history using List.reverseRecOn generalizing burst with
  | nil =>
      rw [trackerOf_nil]
      exact iff_of_false nofun not_inFlight_nil
  | append_singleton before event ih =>
      rw [trackerOf_append_singleton, inFlight_append_singleton, ← ih]
      by_cases on : event.record.command = command
      · subst on
        rw [if_pos rfl]
        by_cases enters : History.Enters before event .request
        · have starts := (History.enters_request_iff.mp enters).1
          have goesOn (owner : TxnId) :
              ¬ History.EndsBurst before event event.record.command owner := by
            rintro ⟨ends, -⟩
            rcases starts.1 with own | own <;> rw [ends] at own <;> cases own
          rw [openBurst_ruling_of_enters config enters,
            foundOfKind_ordering_of_enters_request config enters]
          cases flight : (trackerOf config before event.record.command).openBurst with
          | none =>
              -- nothing is in flight, and the start is not reported on
              simp [enters, eq_comm]
          | some held =>
              -- the start is reported on, and what is in flight stays so
              have other : held.owner ≠ event.record.uid := ((ih held).mp flight).owner_ne starts
              simp [Option.filter_some, other, goesOn]
        · -- all else leaves the slot alone, except the end of its owner's request
          rw [openBurst_ruling_iff_of_not_enters config enters]
          simp [enters]
      · rw [if_neg on]
        simp [on, History.EndsBurst]

/-! ### Starts of bursts -/

/-- A burst that starts while another is in flight is reported once, unless a beat was ended in
its name before; the owner of the other is a different transaction, and its burst goes on. Where
no burst is in flight, nothing is reported. -/
theorem foundOfKind_ordering_of_startsBurst (config : CheckerConfig)
    (starts : before.StartsBurst event) :
    (∀ burst, InFlight config event.record.command before burst →
        burst.owner ≠ event.record.uid ∧
          before.BurstInProgress event.record.command burst.owner ∧
            (.endPartialRequest ∉
                before.since event.record.command event.record.uid .endRequest →
              foundOfKind .ordering config before event =
                [Violation.ofBreach event.record
                  (.burstOverlap event.record.axiId burst.owner burst.axiId)])) ∧
      ((∀ burst, ¬ InFlight config event.record.command before burst) ∨
          .endPartialRequest ∈ before.since event.record.command event.record.uid .endRequest →
        foundOfKind .ordering config before event = []) := by
  refine ⟨fun burst flight => ⟨flight.owner_ne starts, flight.burstInProgress, ?_⟩, ?_⟩
  · intro unended
    have enters := History.enters_request_iff.mpr ⟨starts, unended⟩
    have held := (openBurst_trackerOf_iff config before event.record.command burst).mpr flight
    rw [foundOfKind_ordering_of_enters_request config enters, held]
    simp [Option.filter_some, flight.owner_ne starts]
  · intro quiet
    by_cases enters : before.Enters event .request
    · have unended := (History.enters_request_iff.mp enters).2
      have vacant : (trackerOf config before event.record.command).openBurst = none := by
        refine Option.eq_none_iff_forall_ne_some.mpr (fun burst held => ?_)
        have flight := (openBurst_trackerOf_iff config _ _ burst).mp held
        exact quiet.elim (fun none => none burst flight) unended
      rw [foundOfKind_ordering_of_enters_request config enters, vacant]
      rfl
    · refine foundOfKind_ordering_of_not_enters config (fun side => ?_)
      cases side with
      | request => exact enters
      | response =>
          rintro ⟨-, on, -⟩
          rcases starts.1 with own | own <;> rw [own] at on <;> cases on

def writeOfTwo (number : Nat) : Transaction :=
  (Transaction.plain ⟨number⟩ .write).withBurst 1 0 .incr

theorem foundOfKind_ordering_of_startsBurst_of_two_writes :
    History.StartsBurst
        [⟨.beginPartialRequest, writeOfTwo 0⟩, ⟨.endPartialRequest, writeOfTwo 0⟩]
        ⟨.beginRequest, writeOfTwo 1⟩ ∧
      foundOfKind .ordering {}
          [⟨.beginPartialRequest, writeOfTwo 0⟩, ⟨.endPartialRequest, writeOfTwo 0⟩]
          ⟨.beginRequest, writeOfTwo 1⟩ =
        [Violation.ofBreach (writeOfTwo 1) (.burstOverlap 0 ⟨0⟩ 0)] := by
  have starts : History.StartsBurst
      [⟨.beginPartialRequest, writeOfTwo 0⟩, ⟨.endPartialRequest, writeOfTwo 0⟩]
      ⟨.beginRequest, writeOfTwo 1⟩ := by decide
  have flight : InFlight {} .write
      ([] ++ [⟨.beginPartialRequest, writeOfTwo 0⟩] ++ [⟨.endPartialRequest, writeOfTwo 0⟩])
      ⟨0, ⟨0⟩⟩ :=
    .kept (.opened (by decide) rfl (by decide)) (by decide)
  exact ⟨starts, ((foundOfKind_ordering_of_startsBurst {} starts).1 _ flight).2.2 (by decide)⟩

/-- The first of two nested bursts ends, and a third starts inside the second. Then a beat is
ended in the name of a write inside the burst of another, and its burst starts. Neither start is
reported. -/
theorem foundOfKind_ordering_of_nested_and_of_foreign_end :
    (History.StartsBurst
          [⟨.beginPartialRequest, writeOfTwo 0⟩, ⟨.endPartialRequest, writeOfTwo 0⟩,
            ⟨.beginPartialRequest, writeOfTwo 1⟩, ⟨.endPartialRequest, writeOfTwo 1⟩,
            ⟨.beginRequest, writeOfTwo 0⟩, ⟨.endRequest, writeOfTwo 0⟩]
          ⟨.beginRequest, writeOfTwo 2⟩ ∧
        History.BurstInProgress
          [⟨.beginPartialRequest, writeOfTwo 0⟩, ⟨.endPartialRequest, writeOfTwo 0⟩,
            ⟨.beginPartialRequest, writeOfTwo 1⟩, ⟨.endPartialRequest, writeOfTwo 1⟩,
            ⟨.beginRequest, writeOfTwo 0⟩, ⟨.endRequest, writeOfTwo 0⟩] .write ⟨1⟩ ∧
          foundOfKind .ordering {}
            [⟨.beginPartialRequest, writeOfTwo 0⟩, ⟨.endPartialRequest, writeOfTwo 0⟩,
              ⟨.beginPartialRequest, writeOfTwo 1⟩, ⟨.endPartialRequest, writeOfTwo 1⟩,
              ⟨.beginRequest, writeOfTwo 0⟩, ⟨.endRequest, writeOfTwo 0⟩]
            ⟨.beginRequest, writeOfTwo 2⟩ = []) ∧
      (History.StartsBurst
          [⟨.beginPartialRequest, writeOfTwo 0⟩, ⟨.endPartialRequest, writeOfTwo 1⟩]
          ⟨.beginRequest, writeOfTwo 1⟩ ∧
        History.BurstInProgress
          [⟨.beginPartialRequest, writeOfTwo 0⟩, ⟨.endPartialRequest, writeOfTwo 1⟩] .write ⟨0⟩ ∧
          foundOfKind .ordering {}
            [⟨.beginPartialRequest, writeOfTwo 0⟩, ⟨.endPartialRequest, writeOfTwo 1⟩]
            ⟨.beginRequest, writeOfTwo 1⟩ = []) := by
  decide

end Checker

end Handshake
