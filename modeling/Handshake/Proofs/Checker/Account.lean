import Handshake.Proofs.Checker.Agreement
import Handshake.Proofs.Checker.History
set_option autoImplicit false

/-! The account of a whole history. If every observation fits the account of those before
it, there is an account of them all: the courses that the transactions follow, the
trackers that agree with them, and the order in which requests are accepted and
answered. An observation fits if it is a step of the phase graph and breaks no rule. -/

namespace Handshake

namespace History

def Follows (history : History) (courses : TxnId → Course) : Prop :=
  ∀ txn, Course.start.walk (history.handshakesOf txn) = some (courses txn)

def Known (records : TxnId → Transaction) (history : History) : Prop :=
  ∀ seen ∈ history, records seen.record.uid = seen.record

theorem Known.of_append {records : TxnId → Transaction} {before after : History}
    (known : Known records (before ++ after)) : Known records before :=
  fun seen member => known seen (List.mem_append_left _ member)

theorem Consistent.exists_known {history : History} (consistent : history.Consistent) :
    ∃ records, history.Known records :=
  exists_of_uid id (fun txn => .plain txn .other) consistent

variable {history : History} {event : Observation} {courses : TxnId → Course}

theorem Follows.append_singleton (follows : history.Follows courses) {next : Course}
    (handshake : event.phase.isHandshake = true)
    (step : (courses event.record.uid).step event.phase = some next) :
    (history ++ [event]).Follows (Function.update courses event.record.uid next) := by
  intro txn
  rw [handshakesOf_append_singleton]
  by_cases own : event.record.uid = txn
  · subst own
    rw [if_pos ⟨rfl, handshake⟩, Course.walk_append_singleton, follows, Option.bind_some, step,
      Function.update_self]
  · rw [if_neg (fun both => own both.1), List.append_nil, follows,
      Function.update_of_ne (Ne.symm own)]

theorem Follows.append_bare (follows : history.Follows courses)
    (bare : event.phase.isHandshake = false) : (history ++ [event]).Follows courses := by
  intro txn
  rw [handshakesOf_append_singleton, if_neg (fun both => by simp [bare] at both),
    List.append_nil, follows]

end History

namespace Checker

def Agrees (checker : Checker) (records : TxnId → Transaction) (courses : TxnId → Course) :
    Prop :=
  ∀ command, (checker.trackers.get command).Agrees command records courses

structure Fits (checker : Checker) (courses : TxnId → Course) (event : Observation) : Prop where
  inPlace : (checker.trackers.get event.record.command).InPlace event.phase
  step : event.phase.isHandshake = true →
    ∃ next, (courses event.record.uid).step event.phase = some next
  vacant : event.phase.isRequest = true → (courses event.record.uid).state = .idle →
    (checker.trackers.get event.record.command).openBurst = none
  inTurn : event.phase.isResponse = true →
    (courses event.record.uid).state = .waitForResponse →
      ((checker.trackers.get event.record.command).queue event.record.axiId).head? =
        some event.record.uid

variable {checker : Checker} {records : TxnId → Transaction} {courses : TxnId → Course}
  {event : Observation}

theorem agrees_new (config : CheckerConfig) (records : TxnId → Transaction) :
    (new config).Agrees records (fun _ => .start) := by
  intro command
  cases command <;> exact Tracker.agrees_empty _ records

theorem Agrees.observe (agrees : checker.Agrees records courses)
    (known : records event.record.uid = event.record) (fits : checker.Fits courses event)
    {next : Course} (step : (courses event.record.uid).step event.phase = some next) :
    (checker.observe event.phase event.record).Agrees records
      (Function.update courses event.record.uid next) := by
  intro command
  by_cases own : event.record.command = command
  · subst own
    rw [Checker.observe, Trackers.get_set_self]
    exact (agrees _).observe known rfl fits.inPlace step fits.vacant fits.inTurn
  · rw [Checker.observe, Trackers.get_set_of_ne _ _ (Ne.symm own)]
    refine (agrees command).congr (fun txn member => Function.update_of_ne ?_ _ _)
    rintro rfl
    exact own (by rw [← member, known])

theorem get_trackers_observe_of_bare (checker : Checker)
    (bare : event.phase.isHandshake = false) (command : Command) :
    (checker.observe event.phase event.record).trackers.get command =
      checker.trackers.get command := by
  by_cases own : event.record.command = command
  · subst own
    rw [Checker.observe, Trackers.get_set_self, Tracker.observe_of_bare _ _ bare]
  · rw [Checker.observe, Trackers.get_set_of_ne _ _ (Ne.symm own)]

theorem Agrees.observe_bare (agrees : checker.Agrees records courses)
    (bare : event.phase.isHandshake = false) :
    (checker.observe event.phase event.record).Agrees records courses := by
  intro command
  rw [get_trackers_observe_of_bare checker bare]
  exact agrees command

/-- The accepted requests are those answered and, behind them, those that wait. -/
def Queues (checker : Checker) (history : History) : Prop :=
  ∀ command axiId, history.performed .endRequest command axiId =
    history.performed .endResponse command axiId ++
      (checker.trackers.get command).queue axiId

theorem Agrees.queues_observe (agrees : checker.Agrees records courses) {history : History}
    (queues : checker.Queues history) (known : records event.record.uid = event.record)
    (fits : checker.Fits courses event) {next : Course}
    (step : (courses event.record.uid).step event.phase = some next) :
    (checker.observe event.phase event.record).Queues (history ++ [event]) := by
  intro command axiId
  rw [History.performed_append_singleton, History.performed_append_singleton, queues]
  by_cases own : event.record.command = command
  · subst own
    rw [Checker.observe, Trackers.get_set_self, Tracker.queue_observe fits.inPlace]
    by_cases here : event.record.axiId = axiId
    · subst here
      by_cases request : event.phase = .endRequest
      · simp [request]
      · by_cases response : event.phase = .endResponse
        · rw [response] at step
          have answering := Course.within_response_of_endResponse step
          have head := (agrees _).first event.record.uid (by rw [known]) answering
          have distinct := (agrees event.record.command).waiting event.record.axiId
          rw [known] at head
          obtain ⟨rest, queue⟩ := List.head?_eq_some_iff.mp head
          rw [queue, List.nodup_cons] at distinct
          have kept : rest.filter (fun other => other ≠ event.record.uid) = rest := by
            refine List.filter_eq_self.mpr (fun other member => ?_)
            have different : other ≠ event.record.uid := by
              rintro rfl
              exact distinct.1 member
            simpa using different
          rw [queue, if_neg (fun all => request all.1), if_pos ⟨response, rfl, rfl⟩,
            if_neg (fun both => request both.1), if_pos ⟨response, rfl⟩,
            List.filter_cons_of_neg (by simp), kept]
          simp
        · simp [request, response]
    · simp [here]
  · rw [Checker.observe, Trackers.get_set_of_ne _ _ (Ne.symm own)]
    simp [own]

theorem Queues.observe_bare {history : History} (queues : checker.Queues history)
    (bare : event.phase.isHandshake = false) :
    (checker.observe event.phase event.record).Queues (history ++ [event]) := by
  have notRequest : event.phase ≠ .endRequest := by
    intro last
    rw [last] at bare
    cases bare
  have notResponse : event.phase ≠ .endResponse := by
    intro last
    rw [last] at bare
    cases bare
  intro command axiId
  rw [History.performed_append_singleton, History.performed_append_singleton,
    if_neg (fun all => notRequest all.1), if_neg (fun all => notResponse all.1),
    get_trackers_observe_of_bare checker bare, List.append_nil, List.append_nil]
  exact queues command axiId

/-- What is known of a history and of the checker that observed it. -/
structure Account (config : CheckerConfig) (records : TxnId → Transaction) (history : History)
    (courses : TxnId → Course) : Prop where
  follows : history.Follows courses
  agrees : ((new config).observeAll history).Agrees records courses
  queues : ((new config).observeAll history).Queues history
  latest : ∀ command side seen, history.latest? command side = some seen →
    (courses seen.record.uid).state.openPhase? side = seen.phase.opens?

theorem Account.isPlain {config : CheckerConfig} {history : History}
    (account : Account config records history courses) (txn : TxnId) :
    (courses txn).state.isPlain = true :=
  Course.walk_isPlain (account.follows txn) rfl

theorem Account.path {config : CheckerConfig} {history : History}
    (account : Account config records history courses) (txn : TxnId) :
    State.walk .idle (history.handshakesOf txn) = some (courses txn).state :=
  Course.walk_state (account.follows txn)

private theorem latest_observe {config : CheckerConfig} {history : History}
    (account : Account config records history courses) (known : history.Known records)
    (own : records event.record.uid = event.record) {next : Course}
    (step : (courses event.record.uid).step event.phase = some next)
    {command : Command} {side : Side} {seen : Observation}
    (latest : (history ++ [event]).latest? command side = some seen) :
    (Function.update courses event.record.uid next seen.record.uid).state.openPhase? side =
      seen.phase.opens? := by
  rw [History.latest?_append_singleton] at latest
  by_cases on : event.record.command = command ∧ event.phase.side? = some side
  · rw [if_pos on] at latest
    cases latest
    rw [Function.update_self]
    exact (Course.openPhase?_step step on.2).2
  · rw [if_neg on] at latest
    have before := account.latest command side seen latest
    obtain ⟨member, onCommand, -⟩ := History.mem_of_latest? latest
    by_cases same : seen.record.uid = event.record.uid
    · -- the two share their record, so they are on different sides
      have record : seen.record = event.record := by
        rw [← known seen member, same, own]
      have off : event.phase.side? ≠ some side := fun onSide =>
        on ⟨by rw [← record]; exact onCommand, onSide⟩
      obtain ⟨closed, stays⟩ := Course.openPhase?_step_of_ne step off
      rw [same] at before ⊢
      rw [Function.update_self, stays, ← closed, before]
    · rw [Function.update_of_ne same]
      exact before

theorem account_nil (config : CheckerConfig) (records : TxnId → Transaction) :
    Account config records [] (fun _ => .start) where
  follows := fun _ => rfl
  agrees := agrees_new config records
  queues := by
    intro command axiId
    cases command <;> rfl
  latest := by
    intro command side seen latest
    cases latest

theorem Account.append_step {config : CheckerConfig} {history : History}
    (account : Account config records history courses)
    (known : History.Known records (history ++ [event]))
    (fits : ((new config).observeAll history).Fits courses event)
    (handshake : event.phase.isHandshake = true) {next : Course}
    (step : (courses event.record.uid).step event.phase = some next) :
    Account config records (history ++ [event])
      (Function.update courses event.record.uid next) := by
  have own : records event.record.uid = event.record := known event (by simp)
  refine ⟨account.follows.append_singleton handshake step, ?_, ?_, ?_⟩
  · rw [observeAll_append_singleton]
    exact account.agrees.observe own fits step
  · rw [observeAll_append_singleton]
    exact account.agrees.queues_observe account.queues own fits step
  · intro command side seen latest
    exact latest_observe account known.of_append own step latest

theorem Account.append_bare {config : CheckerConfig} {history : History}
    (account : Account config records history courses)
    (bare : event.phase.isHandshake = false) :
    Account config records (history ++ [event]) courses := by
  refine ⟨account.follows.append_bare bare, ?_, ?_, ?_⟩
  · rw [observeAll_append_singleton]
    exact account.agrees.observe_bare bare
  · rw [observeAll_append_singleton]
    exact account.queues.observe_bare bare
  · intro command side seen latest
    rw [History.latest?_append_singleton, if_neg ?_] at latest
    · exact account.latest command side seen latest
    · intro both
      have on := (Phase.side?_isSome_iff _).mp (Option.isSome_of_eq_some both.2)
      rw [bare] at on
      cases on

/-- Every observation fits the account of those before it. -/
def Fitting (config : CheckerConfig) (records : TxnId → Transaction) (history : History) : Prop :=
  history.Throughout (fun before event => ∀ courses, Account config records before courses →
    ((new config).observeAll before).Fits courses event)

namespace Fitting

variable {config : CheckerConfig} {history before after : History}

theorem exists_account (fitting : Fitting config records history)
    (known : History.Known records history) :
    ∃ courses, Account config records history courses := by
  induction history using List.reverseRecOn with
  | nil => exact ⟨_, account_nil config records⟩
  | append_singleton before event ih =>
      obtain ⟨fitsBefore, fitsLast⟩ := History.throughout_append_singleton.mp fitting
      obtain ⟨courses, account⟩ := ih fitsBefore known.of_append
      have fits := fitsLast courses account
      cases handshake : event.phase.isHandshake with
      | false => exact ⟨courses, account.append_bare handshake⟩
      | true =>
          obtain ⟨next, step⟩ := fits.step handshake
          exact ⟨_, account.append_step known fits handshake step⟩

theorem account_before (fitting : Fitting config records history)
    (known : History.Known records history) (split : history = before ++ event :: after) :
    ∃ courses, Account config records before courses ∧
      ((new config).observeAll before).Fits courses event := by
  subst split
  have earlier : Fitting config records before := History.Throughout.of_append fitting
  obtain ⟨courses, account⟩ := earlier.exists_account known.of_append
  exact ⟨courses, account, fitting before event after rfl courses account⟩

end Fitting

theorem phaseOn_observeAll (config : CheckerConfig) (history : History) (command : Command)
    (side : Side) :
    (((new config).observeAll history).trackers.get command).phaseOn side =
      (history.latest? command side).bind (fun seen => seen.phase.opens?) := by
  induction history using List.reverseRecOn with
  | nil => cases command <;> cases side <;> rfl
  | append_singleton before event ih =>
      rw [observeAll_append_singleton, History.latest?_append_singleton]
      by_cases own : event.record.command = command
      · subst own
        rw [Checker.observe, Trackers.get_set_self, Tracker.phaseOn_observe, ih]
        by_cases on : event.phase.side? = some side
        · rw [if_pos on, if_pos ⟨rfl, on⟩, Option.bind_some]
        · rw [if_neg on, if_neg (fun both => on both.2)]
      · rw [Checker.observe, Trackers.get_set_of_ne _ _ (Ne.symm own), ih,
          if_neg (fun both => own both.1)]

/-! ### What an observation without violation tells -/

theorem observe_breaches_eq_nil {checker : Checker} {phase : Phase} {txn : Transaction}
    (clean : checker.breaches phase txn = []) :
    ((checker.trackers.get txn.command).observe txn phase).breaches = [] := by
  simp only [breaches, List.append_eq_nil_iff] at clean
  exact clean.1.1.2

theorem Agrees.head_of_begins (agrees : checker.Agrees records courses)
    (known : records event.record.uid = event.record)
    (clean : checker.breaches event.phase event.record = [])
    (response : event.phase.isResponse = true) (begins : event.phase.isBegin = true)
    (outside : (courses event.record.uid).state.within .response = false) :
    ((checker.trackers.get event.record.command).queue event.record.axiId).head? =
      some event.record.uid := by
  have ruled := observe_breaches_eq_nil clean
  have uncounted := (agrees event.record.command).beats .response event.record.uid (by rw [known])
  rw [Course.beats?, outside] at uncounted
  have absent : (checker.trackers.get event.record.command).responseBeats.get?
      event.record.uid = none := uncounted
  rcases (Tracker.breaches_observe_of_begin_response
    (Tracker.inPlace_of_breaches_eq_nil ruled)
    (Phase.begins_of_isResponse response begins)).mp ruled with counted | head
  · rw [absent] at counted
    cases counted
  · exact head

theorem Agrees.isAccepted_of_begins (agrees : checker.Agrees records courses)
    (known : records event.record.uid = event.record)
    (clean : checker.breaches event.phase event.record = [])
    (response : event.phase.isResponse = true) (begins : event.phase.isBegin = true) :
    (courses event.record.uid).state.isAccepted = true := by
  cases within : (courses event.record.uid).state.within .response with
  | true => exact State.isAccepted_of_within_response within
  | false =>
      have head := agrees.head_of_begins known clean response begins within
      exact (((agrees _).accepted _).mp (Tracker.mem_queue.mp (List.mem_of_head? head))).2.2

theorem Agrees.fits (agrees : checker.Agrees records courses)
    (known : records event.record.uid = event.record)
    (clean : checker.breaches event.phase event.record = [])
    (plain : (courses event.record.uid).state.isPlain = true)
    (moves : event.phase.isHandshake = true →
      ∃ move, (courses event.record.uid).state.step event.phase = some move) :
    checker.Fits courses event := by
  have ruled := observe_breaches_eq_nil clean
  have account := agrees event.record.command
  have inPlace := Tracker.inPlace_of_breaches_eq_nil ruled
  refine ⟨inPlace, fun handshake => ?_, ?_, ?_⟩
  · obtain ⟨move, step⟩ := moves handshake
    have accepted : (courses event.record.uid).state = .request →
        event.phase.isResponse = false := by
      intro requested
      cases response : event.phase.isResponse with
      | false => rfl
      | true =>
          rw [requested] at step
          have begins := State.isBegin_of_request_step step response
          have state := agrees.isAccepted_of_begins known clean response begins
          rw [requested] at state
          cases state
    obtain ⟨next, taken, -⟩ := Course.step_of_state step handshake plain accepted
    exact ⟨next, taken⟩
  · intro request idle
    obtain ⟨move, step⟩ := moves (by rw [Phase.isHandshake, request, Bool.true_or])
    have begins : event.phase = .beginPartialRequest ∨ event.phase = .beginRequest := by
      rw [idle] at step
      exact State.begins_of_idle_step step request
    have uncounted := account.beats .request event.record.uid (by rw [known])
    rw [Course.beats?, idle] at uncounted
    have absent : (checker.trackers.get event.record.command).requestBeats.get?
        event.record.uid = none := uncounted
    cases flight : (checker.trackers.get event.record.command).openBurst with
    | none => rfl
    | some burst =>
        rcases (Tracker.breaches_observe_of_begin_request inPlace begins).mp ruled with
          counted | owned
        · rw [absent] at counted
          cases counted
        · have inside := ((account.burst burst).mp flight).2.2
          rw [owned burst flight, idle] at inside
          cases inside
  · intro response waits
    obtain ⟨move, step⟩ := moves (by rw [Phase.isHandshake, response, Bool.or_true])
    rw [waits] at step
    exact agrees.head_of_begins known clean response
      (State.isBegin_of_waitForResponse_step step) (by rw [waits]; rfl)

end Checker

end Handshake
