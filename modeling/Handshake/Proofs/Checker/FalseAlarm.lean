import Handshake.Proofs.Checker.Orderly
import Handshake.Proofs.Checker.Report
set_option autoImplicit false

/-! What the checker finds in orderly histories: wrong byte counts and illegal attributes,
which are matters of the records alone, and nothing else. -/

namespace Handshake

/-- A burst that starts at the beginning of a beat moves exactly its bytes; one that starts
inside a beat does not run past its end. -/
def Transaction.FillsBurst (txn : Transaction) : Prop :=
  if txn.startOffset = 0 then txn.bytes = txn.burstBytes
  else txn.bytes + txn.startOffset ≤ txn.burstBytes

instance (txn : Transaction) : Decidable txn.FillsBurst :=
  inferInstanceAs (Decidable (if txn.startOffset = 0 then txn.bytes = txn.burstBytes
    else txn.bytes + txn.startOffset ≤ txn.burstBytes))

private theorem byteBreaches_of_fillsBurst {txn : Transaction} (fills : txn.FillsBurst) :
    byteBreaches txn = [] := by
  unfold Transaction.FillsBurst at fills
  unfold byteBreaches
  by_cases aligned : txn.startOffset = 0
  · rw [if_pos aligned] at fills ⊢
    exact if_pos fills
  · rw [if_neg aligned] at fills ⊢
    exact if_pos (Nat.le_trans txn.dataEnd_le fills)

private theorem fillsBurst_of_byteBreaches {txn : Transaction}
    (fits : txn.bytes + txn.startOffset < Integer.bound) (quiet : byteBreaches txn = []) :
    txn.FillsBurst := by
  unfold byteBreaches at quiet
  rw [Transaction.dataEnd_of_lt fits] at quiet
  unfold Transaction.FillsBurst
  by_cases aligned : txn.startOffset = 0
  · rw [if_pos aligned] at quiet ⊢
    by_contra short
    rw [if_neg short] at quiet
    cases quiet
  · rw [if_neg aligned] at quiet ⊢
    by_contra long
    rw [if_neg long] at quiet
    cases quiet

/-- The bytes of a write are counted at the end of its request, and those of a read at the
end of its response. -/
def Observation.CountsBytes (event : Observation) : Prop :=
  (event.phase = .endRequest ∧ event.record.isWrite = true) ∨
    (event.phase = .endResponse ∧ event.record.isRead = true)

instance (event : Observation) : Decidable event.CountsBytes :=
  inferInstanceAs (Decidable (_ ∨ _))

namespace Checker

variable {config : CheckerConfig} {records : TxnId → Transaction} {history before after : History}
  {courses : TxnId → Course} {event : Observation}

/-! ### Acknowledgments -/

private theorem mem_awaiting (ace : config.ace = true) (known : History.Known records history)
    (inPlace : history.Throughout (fun before event =>
      (((new config).observeAll before).trackers.get event.record.command).InPlace event.phase))
    {txn : TxnId} (charged : (records txn).snoopOnly = false)
    (ended : .endResponse ∈ history.phasesOf txn)
    (owed : .acknowledge ∉ history.phasesOf txn) :
    txn ∈ ((new config).observeAll history).awaiting := by
  induction history using List.reverseRecOn with
  | nil => cases ended
  | append_singleton before event ih =>
      obtain ⟨earlier, last⟩ := History.throughout_append_singleton.mp inPlace
      have coherent : ((new config).observeAll before).config.ace = true := by
        rw [config_observeAll]
        exact ace
      have completed : ((((new config).observeAll before).trackers.get
          event.record.command).observe event.record event.phase).milestone =
            some .responseCompleted ↔ event.phase = .endResponse :=
        Tracker.milestone_observe_responseCompleted last
      rw [History.phasesOf_append_singleton] at ended owed
      rw [observeAll_append_singleton, observe, awaitingAfter, if_neg (by simp [coherent])]
      by_cases own : event.record.uid = txn
      · rw [if_pos own] at ended owed
        simp only [List.mem_append, List.mem_singleton, not_or] at ended owed
        have record : event.record = records txn := by
          rw [← own, known event (by simp)]
        rw [if_neg (fun acknowledges => owed.2 acknowledges.symm)]
        rcases ended with already | now
        · have waiting := ih known.of_append earlier already owed.1
          split
          · exact List.mem_insert_of_mem waiting
          · exact waiting
        · rw [if_pos ⟨completed.mpr now.symm, by simp [record, charged]⟩, own]
          exact List.mem_insert_self
      · rw [if_neg own, List.append_nil] at ended owed
        have waiting := ih known.of_append earlier ended owed
        split
        · exact (List.mem_erase_of_ne (Ne.symm own)).mpr waiting
        · split
          · exact List.mem_insert_of_mem waiting
          · exact waiting

/-! ### The rules of one observation -/

private theorem commandBreaches_of_orderly
    (orderly : History.Orderly config (before ++ event :: after)) :
    commandBreaches event.record event.phase = [] := by
  have member : event.phase.isHandshake = true → event.phase ∈ event.record.handshakes :=
    fun handshake => (orderly.handshakes_alive handshake).subset (by simp)
  refine if_neg ?_
  rintro (⟨phase, notWrite⟩ | ⟨phase, notRead⟩)
  · rw [phase] at member
    exact notWrite (Transaction.isWrite_of_mem_handshakes (member rfl))
  · rw [phase] at member
    exact notRead (Transaction.isRead_of_mem_handshakes (member rfl))

private theorem bareBreaches_of_orderly
    (orderly : History.Orderly config (before ++ event :: after))
    (known : History.Known records (before ++ event :: after))
    (inPlace : before.Throughout (fun before event =>
      (((new config).observeAll before).trackers.get event.record.command).InPlace
        event.phase)) :
    ((new config).observeAll before).bareBreaches event.record event.phase = [] := by
  unfold bareBreaches
  cases handshake : event.phase.isHandshake with
  | true => exact if_pos handshake
  | false =>
      obtain ⟨ends, ace, charged, phases⟩ := orderly.acknowledge_of_bare handshake
      have coherent : ((new config).observeAll before).config.ace = true := by
        rw [config_observeAll]
        exact ace
      have own : records event.record.uid = event.record := known event (by simp)
      have waiting : event.record.uid ∈ ((new config).observeAll before).awaiting := by
        refine mem_awaiting ace known.of_append inPlace (by rw [own]; exact charged) ?_ ?_
        · rw [phases, Transaction.handshakes_eq]
          simp
        · rw [phases]
          intro member
          cases Transaction.isHandshake_of_mem_handshakes member
      rw [if_neg (by simpa [Phase.isHandshake] using handshake), if_pos ends,
        if_neg (by simp [coherent]), if_pos waiting]

private theorem trackerBreaches_of_begin_request (account : Account config records before courses)
    (fits : ((new config).observeAll before).Fits courses event)
    (own : records event.record.uid = event.record)
    (begins : event.phase = .beginPartialRequest ∨ event.phase = .beginRequest) :
    ((((new config).observeAll before).trackers.get event.record.command).observe event.record
      event.phase).breaches = [] := by
  have request : event.phase.isRequest = true := by
    rcases begins with equal | equal <;> rw [equal] <;> rfl
  have counted := (account.agrees event.record.command).beats .request event.record.uid
    (by rw [own])
  obtain ⟨next, step⟩ := fits.step (by rw [Phase.isHandshake, request, Bool.true_or])
  apply (Tracker.breaches_observe_of_begin_request fits.inPlace begins).mpr
  by_cases idle : (courses event.record.uid).state = .idle
  · refine .inr (fun burst flight => ?_)
    rw [fits.vacant request idle] at flight
    cases flight
  · have within := Course.within_request_of_step step
    rw [Course.beats?, within, if_pos (by simp [idle, request])] at counted
    exact .inl (Option.isSome_of_eq_some counted)

private theorem trackerBreaches_of_begin_response (account : Account config records before courses)
    (fits : ((new config).observeAll before).Fits courses event)
    (own : records event.record.uid = event.record)
    (begins : event.phase = .beginPartialResponse ∨ event.phase = .beginResponse) :
    ((((new config).observeAll before).trackers.get event.record.command).observe event.record
      event.phase).breaches = [] := by
  have response : event.phase.isResponse = true := by
    rcases begins with equal | equal <;> rw [equal] <;> rfl
  have counted := (account.agrees event.record.command).beats .response event.record.uid
    (by rw [own])
  obtain ⟨next, step⟩ := fits.step (by rw [Phase.isHandshake, response, Bool.or_true])
  apply (Tracker.breaches_observe_of_begin_response fits.inPlace begins).mpr
  by_cases waits : (courses event.record.uid).state = .waitForResponse
  · exact .inr (fits.inTurn response waits)
  · have within := Course.within_response_of_step step
    rw [Course.beats?, within, if_pos (by simp [waits, response])] at counted
    exact .inl (Option.isSome_of_eq_some counted)

private theorem trackerBreaches_of_orderly (account : Account config records before courses)
    (fits : ((new config).observeAll before).Fits courses event)
    (orderly : History.Orderly config (before ++ event :: after))
    (own : records event.record.uid = event.record) :
    ((((new config).observeAll before).trackers.get event.record.command).observe event.record
        event.phase).breaches =
      if event.CountsBytes then byteBreaches event.record else [] := by
  have agrees := account.agrees event.record.command
  have here : (records event.record.uid).command = event.record.command := by rw [own]
  have inPlace := fits.inPlace
  obtain ⟨phase, record⟩ := event
  cases phase with
  | beginPartialRequest | beginRequest =>
      rw [trackerBreaches_of_begin_request account fits own (by simp), if_neg]
      rintro (⟨ends, -⟩ | ⟨ends, -⟩) <;> cases ends
  | beginPartialResponse | beginResponse =>
      rw [trackerBreaches_of_begin_response account fits own (by simp), if_neg]
      rintro (⟨ends, -⟩ | ⟨ends, -⟩) <;> cases ends
  | endRequest =>
      have counted := agrees.beats .request record.uid here
      have course := Course.course_of_endRequest (orderly.handshakes_alive rfl)
        (account.follows record.uid)
      rw [Course.beats?, course] at counted
      have beats : (((new config).observeAll before).trackers.get
          record.command).requestBeats.get? record.uid = some record.earlyRequests := counted
      rw [Tracker.breaches_observe_endRequest_eq inPlace, beats]
      cases write : record.isWrite with
      | false => simp [Observation.CountsBytes, write]
      | true =>
          simp [Observation.CountsBytes, write, Transaction.earlyRequests, beatBreaches,
            Transaction.beats]
  | endResponse =>
      have counted := agrees.beats .response record.uid here
      have course := Course.course_of_endResponse (orderly.handshakes_alive rfl)
        (account.follows record.uid)
      rw [Course.beats?, course] at counted
      have beats : (((new config).observeAll before).trackers.get
          record.command).responseBeats.get? record.uid = some record.earlyResponses := counted
      rw [Tracker.breaches_observe_endResponse_eq inPlace, beats]
      cases read : record.isRead with
      | false => simp [Observation.CountsBytes, read]
      | true =>
          simp [Observation.CountsBytes, read, Transaction.earlyResponses, beatBreaches,
            Transaction.beats]
  | _ =>
      rw [Tracker.breaches_observe_of_rest inPlace rfl (by simp) (by simp), if_neg]
      rintro (⟨ends, -⟩ | ⟨ends, -⟩) <;> cases ends

private theorem attributeFaults_of_first (account : Account config records before courses)
    (fits : ((new config).observeAll before).Fits courses event)
    (orderly : History.Orderly config (before ++ event :: after))
    (own : records event.record.uid = event.record)
    (first : before.phasesOf event.record.uid = []) (ace : config.ace = true)
    (quiet : ((new config).observeAll before).breaches event.phase event.record = []) :
    Coherence.attributeFaults config event.record = [] := by
  have agrees := account.agrees event.record.command
  have handshake : event.phase.isHandshake = true := by
    cases bare : event.phase.isHandshake with
    | true => rfl
    | false =>
        have whole := (orderly.acknowledge_of_bare bare).2.2.2
        rw [first, Transaction.handshakes_eq] at whole
        simp at whole
  have started : courses event.record.uid = .start := by
    have walk := account.follows event.record.uid
    rw [History.handshakesOf, first] at walk
    exact (Option.some.inj walk).symm
  obtain ⟨next, step⟩ := fits.step handshake
  have begins := Course.begins_of_idle (by rw [started]; rfl) step
  have counted := agrees.beats .request event.record.uid (by rw [own])
  rw [started] at counted
  have opens : ((((new config).observeAll before).trackers.get event.record.command).observe
      event.record event.phase).milestone = some .burstOpened :=
    (Tracker.milestone_observe_burstOpened fits.inPlace).mpr ⟨begins, counted⟩
  simp only [breaches, List.append_eq_nil_iff] at quiet
  have checked := quiet.1.2
  rw [attributeBreaches, if_pos ⟨by rw [config_observeAll]; exact ace, opens⟩,
    config_observeAll] at checked
  exact List.map_eq_nil_iff.mp checked

/-! ### Orderly histories -/

/-- What there is to find in the record of an observation, whatever came before. -/
def recordBreaches (config : CheckerConfig) (seen : Observation) : List Breach :=
  (if seen.CountsBytes then byteBreaches seen.record else []) ++
    if config.ace = true then (Coherence.attributeFaults config seen.record).map .attributes
    else []

theorem recordBreaches_eq_nil_iff {seen : Observation} :
    recordBreaches config seen = [] ↔
      (seen.CountsBytes → byteBreaches seen.record = []) ∧
        (config.ace = true → Coherence.attributeFaults config seen.record = []) := by
  rw [recordBreaches, List.append_eq_nil_iff, ite_eq_right_iff, ite_eq_right_iff,
    List.map_eq_nil_iff]

def Legal (config : CheckerConfig) (seen : Observation) : Prop :=
  (seen.CountsBytes → seen.record.FillsBurst) ∧
    (config.ace = true → Coherence.attributeFaults config seen.record = [])

instance (config : CheckerConfig) (seen : Observation) : Decidable (Legal config seen) :=
  inferInstanceAs (Decidable (_ ∧ _))

private theorem fitting_of_orderly (orderly : history.Orderly config)
    (known : History.Known records history) : Fitting config records history := by
  rintro before event after rfl courses account
  exact account.fits_of_orderly orderly known

private theorem throughout_inPlace (fitting : Fitting config records history)
    (known : History.Known records history) :
    history.Throughout (fun before event =>
      (((new config).observeAll before).trackers.get event.record.command).InPlace
        event.phase) := by
  intro before event after split
  obtain ⟨courses, -, fits⟩ := fitting.account_before known split
  exact fits.inPlace

private theorem breaches_of_orderly (orderly : History.Orderly config (before ++ event :: after))
    (known : History.Known records (before ++ event :: after)) :
    ((new config).observeAll before).breaches event.phase event.record =
      (if event.CountsBytes then byteBreaches event.record else []) ++
        ((new config).observeAll before).attributeBreaches event.record
          ((((new config).observeAll before).trackers.get event.record.command).observe
            event.record event.phase).milestone := by
  have fitting := fitting_of_orderly orderly known
  obtain ⟨courses, account, fits⟩ := fitting.account_before known rfl
  have earlier : Fitting config records before := History.Throughout.of_append fitting
  rw [breaches, commandBreaches_of_orderly orderly,
    trackerBreaches_of_orderly account fits orderly (known event (by simp)),
    bareBreaches_of_orderly orderly known (throughout_inPlace earlier known.of_append),
    List.nil_append, List.append_nil]

private theorem mem_recordBreaches_of_orderly
    (orderly : History.Orderly config (before ++ event :: after))
    (known : History.Known records (before ++ event :: after)) {breach : Breach}
    (member : breach ∈ ((new config).observeAll before).breaches event.phase event.record) :
    breach ∈ recordBreaches config event := by
  rw [breaches_of_orderly orderly known] at member
  rcases List.mem_append.mp member with bytes | attributes
  · exact List.mem_append_left _ bytes
  · refine List.mem_append_right _ ?_
    rw [attributeBreaches, config_observeAll] at attributes
    split at attributes
    · rename_i opens
      have ace : config.ace = true := opens.1
      rw [if_pos ace]
      exact attributes
    · cases attributes

private theorem clean_iff_recordBreaches (consistent : history.Consistent)
    (orderly : history.Orderly config) :
    Clean config history ↔ ∀ seen ∈ history, recordBreaches config seen = [] := by
  obtain ⟨records, known⟩ := consistent.exists_known
  have fitting := fitting_of_orderly orderly known
  rw [clean_iff_throughout]
  constructor
  · intro quiet seen member
    refine recordBreaches_eq_nil_iff.mpr ⟨fun counts => ?_, fun ace => ?_⟩
    · obtain ⟨before, after, rfl⟩ := List.append_of_mem member
      have silent : ((new config).observeAll before).breaches seen.phase seen.record = [] :=
        quiet before seen after rfl
      rw [breaches_of_orderly orderly known, if_pos counts] at silent
      exact (List.append_eq_nil_iff.mp silent).1
    · -- attributes are judged once, at the first observation of the transaction
      obtain ⟨before, first, after, rfl, uid, fresh⟩ := History.exists_first member
      obtain ⟨courses, account, fits⟩ := fitting.account_before known rfl
      have inHistory : first ∈ before ++ first :: after := by simp
      rw [consistent seen member first inHistory uid.symm]
      exact attributeFaults_of_first account fits orderly (known first inHistory)
        (by rw [uid]; exact fresh) ace (quiet before first after rfl)
  · rintro legal before event after rfl
    refine List.eq_nil_iff_forall_not_mem.mpr (fun breach member => ?_)
    have found := mem_recordBreaches_of_orderly orderly known member
    rw [legal event (by simp)] at found
    cases found

def writeAndRead : History :=
  [⟨.beginRequest, .plain ⟨0⟩ .write⟩, ⟨.beginRequest, .plain ⟨1⟩ .read⟩,
    ⟨.endRequest, .plain ⟨0⟩ .write⟩, ⟨.endRequest, .plain ⟨1⟩ .read⟩,
    ⟨.beginResponse, .plain ⟨1⟩ .read⟩, ⟨.beginResponse, .plain ⟨0⟩ .write⟩,
    ⟨.endResponse, .plain ⟨0⟩ .write⟩, ⟨.endResponse, .plain ⟨1⟩ .read⟩,
    ⟨.acknowledge, .plain ⟨0⟩ .write⟩]

end Checker

end Handshake
