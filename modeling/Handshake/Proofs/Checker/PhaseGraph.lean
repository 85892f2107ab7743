import Handshake.Proofs.Checker.Account
set_option autoImplicit false

/-! The checker and the phase graph. The checker keeps one open phase for each side of a
command and does not remember whose it is. A clean history is therefore a path of the
graph for every side of every command, but for single transactions only if each of them
closes what it opened itself and begins no new request before its response is complete. -/

namespace Handshake

namespace History

/-- An event finds open on its side of its command what it closes: an end the matching
beginning, and a beginning nothing. -/
def FindsOpen (before : History) (event : Observation) : Prop :=
  ∀ side, event.phase.side? = some side →
    (before.latest? event.record.command side).bind (fun seen => seen.phase.opens?) =
      event.phase.closes?

/-- An end comes from the transaction whose beginning it closes. -/
def ClosesOwn (before : History) (event : Observation) : Prop :=
  event.phase.isBegin = false → ∀ side, event.phase.side? = some side →
    ∀ seen, before.latest? event.record.command side = some seen →
      seen.record.uid = event.record.uid

def AwaitsResponse (history : History) (txn : TxnId) : Prop :=
  ((history.handshakesOf txn).filter
    (fun phase => phase = .endRequest ∨ phase = .endResponse)).getLast? = some .endRequest

/-- A transaction makes no request while it awaits a response. -/
def RequestsWhenAnswered (before : History) (event : Observation) : Prop :=
  event.phase.isRequest = true → ¬ before.AwaitsResponse event.record.uid

end History

namespace Checker

variable {config : CheckerConfig} {records : TxnId → Transaction} {history before : History}
  {courses : TxnId → Course} {event : Observation}

private theorem findsOpen_of_breaches_eq_nil
    (clean : ((new config).observeAll before).breaches event.phase event.record = []) :
    before.FindsOpen event := by
  intro side on
  rw [← phaseOn_observeAll config]
  exact Tracker.inPlace_of_breaches_eq_nil (observe_breaches_eq_nil clean) side on

private theorem Account.awaitsResponse_iff (account : Account config records history courses)
    (txn : TxnId) : history.AwaitsResponse txn ↔ (courses txn).state.isAccepted = true :=
  (Course.isAccepted_iff_of_walk (account.follows txn)).symm

/-! ### From the rules to paths -/

private theorem Account.moves (account : Account config records before courses)
    (known : records event.record.uid = event.record)
    (clean : ((new config).observeAll before).breaches event.phase event.record = [])
    (closesOwn : before.ClosesOwn event) (answered : before.RequestsWhenAnswered event)
    (handshake : event.phase.isHandshake = true) :
    ∃ move, (courses event.record.uid).state.step event.phase = some move := by
  have finds := findsOpen_of_breaches_eq_nil clean
  obtain ⟨side, on⟩ := Option.isSome_iff_exists.mp ((Phase.side?_isSome_iff _).mpr handshake)
  cases closes : event.phase.closes? with
  | some opened =>
      -- an end: its own transaction has the side open
      have found := finds side on
      rw [closes] at found
      obtain ⟨seen, latest, opens⟩ := Option.bind_eq_some_iff.mp found
      have ends : event.phase.isBegin = false := Phase.isBegin_of_closes? closes
      have standing := account.latest event.record.command side seen latest
      rw [closesOwn ends side on seen latest, opens] at standing
      exact State.moves_of_closes on closes standing
  | none =>
      -- a beginning: the side is closed in every transaction of the command
      have begins : event.phase.isBegin = true := Phase.isBegin_of_closes?_eq_none closes handshake
      have closed : (courses event.record.uid).state.openPhase? side = none := by
        cases opened : (courses event.record.uid).state.openPhase? side with
        | none => rfl
        | some earlier =>
            have onTracker := ((account.agrees event.record.command).opened side earlier).mpr
              ⟨event.record.uid, by rw [known], opened⟩
            rw [phaseOn_observeAll, finds side on, closes] at onTracker
            cases onTracker
      cases side with
      | request =>
          have request : event.phase.isRequest = true := Phase.isRequest_of_side? on
          have unaccepted : (courses event.record.uid).state.isAccepted = false := by
            have idle := answered request
            rw [account.awaitsResponse_iff] at idle
            exact Bool.eq_false_iff.mpr idle
          exact State.moves_of_begin_request (Phase.begins_of_isRequest request begins) closed
            unaccepted (account.isPlain _)
      | response =>
          have response : event.phase.isResponse = true := Phase.isResponse_of_side? on
          exact State.moves_of_begin_response (Phase.begins_of_isResponse response begins) closed
            (account.agrees.isAccepted_of_begins known clean response begins)

/-! ### From paths to the rules -/

private theorem Account.moves_of_paths (account : Account config records before courses)
    (paths : ∀ txn, (State.walk .idle ((before ++ [event]).handshakesOf txn)).isSome = true)
    (handshake : event.phase.isHandshake = true) :
    ∃ move, (courses event.record.uid).state.step event.phase = some move := by
  have path := paths event.record.uid
  rw [History.handshakesOf_append_singleton, if_pos ⟨rfl, handshake⟩,
    State.walk_append_singleton, account.path, Option.bind_some, Option.isSome_map] at path
  exact Option.isSome_iff_exists.mp path

private theorem Account.closesOwn (account : Account config records before courses)
    (known : History.Known records before) (own : records event.record.uid = event.record)
    (fits : ((new config).observeAll before).Fits courses event) :
    before.ClosesOwn event := by
  intro ends side on seen latest
  have handshake := (Phase.side?_isSome_iff event.phase).mp (Option.isSome_of_eq_some on)
  obtain ⟨next, step⟩ := fits.step handshake
  obtain ⟨opened, closes⟩ :=
    Option.isSome_iff_exists.mp (Phase.closes?_isSome_of_isBegin ends handshake)
  have here := (Course.openPhase?_step step on).1
  rw [closes] at here
  have found := fits.inPlace side on
  rw [phaseOn_observeAll, latest, closes, Option.bind_some] at found
  have there := account.latest event.record.command side seen latest
  rw [found] at there
  obtain ⟨member, onCommand, -⟩ := History.mem_of_latest? latest
  exact (account.agrees event.record.command).alone side _ _ _ _
    (by rw [known seen member, onCommand]) there (by rw [own]) here

private theorem Account.requestsWhenAnswered (account : Account config records before courses)
    (fits : ((new config).observeAll before).Fits courses event) :
    before.RequestsWhenAnswered event := by
  intro request
  obtain ⟨next, step⟩ := fits.step (by rw [Phase.isHandshake, request, Bool.true_or])
  rw [account.awaitsResponse_iff, (Course.isAccepted_step step).1]
  exact Bool.eq_false_iff.mp (Phase.isResponse_of_isRequest request)

/-! ### Clean histories -/

/-- In a clean history every event finds open what it closes, and the transactions follow
paths of the graph exactly if each closes only what it opened and makes no request while
it awaits a response. -/
theorem clean_findsOpen_and_paths_iff (consistent : history.Consistent)
    (clean : Clean config history) :
    history.Throughout History.FindsOpen ∧
      ((∀ txn, (State.walk .idle (history.handshakesOf txn)).isSome = true) ↔
        history.Throughout History.ClosesOwn ∧
          history.Throughout History.RequestsWhenAnswered) := by
  obtain ⟨records, known⟩ := consistent.exists_known
  have quiet := clean_iff_throughout.mp clean
  have own : ∀ before event after, history = before ++ event :: after →
      records event.record.uid = event.record := by
    intro before event after split
    exact known event (by simp [split])
  refine ⟨fun before event after split =>
    findsOpen_of_breaches_eq_nil (quiet before event after split), ?_, ?_⟩
  · intro paths
    have fitting : Fitting config records history := by
      intro before event after split courses account
      refine account.agrees.fits (own before event after split)
        (quiet before event after split) (account.isPlain _) (account.moves_of_paths ?_)
      intro txn
      exact State.isSome_walk_of_append (by
        have path := paths txn
        rw [split, List.append_cons, History.handshakesOf_append] at path
        exact path)
    refine ⟨fun before event after split => ?_, fun before event after split => ?_⟩
    all_goals
      obtain ⟨courses, account, fits⟩ := fitting.account_before known split
    · rw [split] at known
      exact account.closesOwn known.of_append (known event (by simp)) fits
    · exact account.requestsWhenAnswered fits
  · intro ⟨closesOwn, answered⟩ txn
    have fitting : Fitting config records history := by
      intro before event after split courses account
      have here := own before event after split
      have unbroken := quiet before event after split
      exact account.agrees.fits here unbroken (account.isPlain _)
        (account.moves here unbroken (closesOwn before event after split)
          (answered before event after split))
    obtain ⟨courses, account⟩ := fitting.exists_account known
    exact Option.isSome_of_eq_some (account.path txn)

/-- The request of one read ended by another, and then a read that is never answered and
asks again: the checker finds nothing in either, and neither is a path. -/
theorem clean_of_foreign_end_and_of_skipped_response :
    (History.Consistent
          [⟨.beginRequest, .plain ⟨0⟩ .read⟩, ⟨.endRequest, .plain ⟨1⟩ .read⟩] ∧
        Clean {} [⟨.beginRequest, .plain ⟨0⟩ .read⟩, ⟨.endRequest, .plain ⟨1⟩ .read⟩] ∧
          State.walk .idle (History.handshakesOf
            [⟨.beginRequest, .plain ⟨0⟩ .read⟩, ⟨.endRequest, .plain ⟨1⟩ .read⟩] ⟨1⟩) = none) ∧
      (History.Consistent
          [⟨.beginRequest, .plain ⟨0⟩ .read⟩, ⟨.endRequest, .plain ⟨0⟩ .read⟩,
            ⟨.beginRequest, .plain ⟨0⟩ .read⟩] ∧
        Clean {} [⟨.beginRequest, .plain ⟨0⟩ .read⟩, ⟨.endRequest, .plain ⟨0⟩ .read⟩,
            ⟨.beginRequest, .plain ⟨0⟩ .read⟩] ∧
          State.walk .idle (History.handshakesOf
            [⟨.beginRequest, .plain ⟨0⟩ .read⟩, ⟨.endRequest, .plain ⟨0⟩ .read⟩,
              ⟨.beginRequest, .plain ⟨0⟩ .read⟩] ⟨0⟩) = none) := by
  decide

theorem findsOpen_and_paths_iff_of_foreign_end :
    History.Throughout History.FindsOpen
        [⟨.beginRequest, .plain ⟨0⟩ .read⟩, ⟨.endRequest, .plain ⟨1⟩ .read⟩] ∧
      ((∀ txn, (State.walk .idle (History.handshakesOf
          [⟨.beginRequest, .plain ⟨0⟩ .read⟩, ⟨.endRequest, .plain ⟨1⟩ .read⟩] txn)).isSome =
            true) ↔
        History.Throughout History.ClosesOwn
            [⟨.beginRequest, .plain ⟨0⟩ .read⟩, ⟨.endRequest, .plain ⟨1⟩ .read⟩] ∧
          History.Throughout History.RequestsWhenAnswered
            [⟨.beginRequest, .plain ⟨0⟩ .read⟩, ⟨.endRequest, .plain ⟨1⟩ .read⟩]) :=
  clean_findsOpen_and_paths_iff (by decide) (show Clean {} _ by decide)

end Checker

end Handshake
