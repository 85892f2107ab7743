import Handshake.Proofs.Trace.Builder
set_option autoImplicit false

/-! A text that is no trace is reported once. The walk over the pairs of a text ends as the reader
of traces does: with a trace and nothing reported, or with one fault, reported as an error in its
own words. No pair lacks a part, so that it never ends without either. -/

namespace Handshake.Trace

namespace Builder

open Grammar (Pair IsValue IsAttribute IsAttrlist IsEvent Parts ruleOf)

/-! ### Settling a result -/

section

variable {ε α β : Type} {source : Source} {locate : ε → Failure}

def settle (source : Source) (locate : ε → Failure) : Except ε α → Build α
  | .ok found => pure found
  | .error fault => giveUp source (locate fault)

private theorem settle_bind (result : Except ε α) (next : α → Except ε β) :
    settle source locate (result >>= next) =
      settle source locate result >>= fun found => settle source locate (next found) := by
  cases result with
  | ok found => exact (pure_bind found (fun found => settle source locate (next found))).symm
  | error fault => rfl

private theorem settle_map (change : α → β) (result : Except ε α) :
    settle source locate (result.map change) = change <$> settle source locate result := by
  cases result with
  | ok found => exact (map_pure change found).symm
  | error fault => rfl

end

def atPart (source : Source) (layout : Layout) : Part × Fault → Failure :=
  fun (part, fault) => layout.failure source.text part fault

def atSpot (source : Source) (layout : AttributeLayout) : Spot × Fault → Failure
  | (.whole, fault) => source.failure layout.whole fault
  | (.value, fault) => source.failure layout.value fault

section

variable {α : Type} {source : Source}

private theorem fail_eq_giveUp {pair : Pair} {extent : Extent} (same : pair.extent = extent)
    (fault : Fault) : (fail source pair fault : Build α) =
      giveUp source (source.failure extent fault) := by
  rw [← same]
  rfl

end

/-! ### Attributes -/

section

variable {source : Source} {attr : Pair} {layout : AttributeLayout} {value : Option Value}
  {given : Option Pair}

def IsGiven (extent : Extent) : Option Value → Option Pair → Prop
  | none, given => given = none
  | some value, given => ∃ pair, given = some pair ∧ pair.rule = ruleOf value ∧
      pair.text = value.text ∧ pair.extent = extent

private theorem isGiven_of_isValue {extent : Extent} {pairs : List Pair}
    (told : IsValue extent value pairs) :
    IsGiven extent value (pairs.head?.bind (fun value => value.inner.head?)) := by
  cases value with
  | none =>
      obtain rfl : pairs = [] := told
      rfl
  | some value =>
      obtain ⟨whole, inner, rfl, inside, rest⟩ := told
      refine ⟨inner, ?_, rest⟩
      show whole.inner.head? = some inner
      rw [inside]
      rfl

private theorem word_eq (whole : attr.extent = layout.whole)
    (told : IsGiven layout.value value given) :
    word source attr given = settle source (atSpot source layout) (wordOf value) := by
  rcases value with _ | _ | _
  · obtain rfl : given = none := told
    exact fail_eq_giveUp whole .notWord
  · obtain ⟨pair, rfl, rule, -, -⟩ := told
    have differs : pair.rule ≠ .ident := fun same => by cases rule.symm.trans same
    exact (if_neg differs).trans (fail_eq_giveUp whole .notWord)
  · obtain ⟨pair, rfl, rule, text, -⟩ := told
    exact (if_pos rule).trans (congrArg pure text)

private theorem keyword_eq {α : Type} (whole : attr.extent = layout.whole)
    (told : IsGiven layout.value value given) (vocabulary : Vocabulary) (name : α → String)
    (all : List α) : keyword source attr vocabulary name all given =
      settle source (atSpot source layout) (keywordOf vocabulary name all value) := by
  rw [keyword, keywordOf, settle_bind, word_eq whole told]
  congr
  funext word
  cases all.find? (fun candidate => (name candidate).toList == word) with
  | none => exact fail_eq_giveUp whole _
  | some found => rfl

private theorem snoop_eq (whole : attr.extent = layout.whole)
    (told : IsGiven layout.value value given) :
    snoop source attr given = settle source (atSpot source layout) (snoopOf value) := by
  rw [snoop, snoopOf, settle_bind, word_eq whole told]
  congr
  funext word
  cases Snoop.ofName? (String.ofList word) with
  | none => exact fail_eq_giveUp whole _
  | some found => rfl

private theorem int_eq (whole : attr.extent = layout.whole)
    (told : IsGiven layout.value value given)
    (maximum : Nat) : int source attr maximum given =
      settle source (atSpot source layout) (integerOf maximum value) := by
  rcases value with _ | literal | _
  · obtain rfl : given = none := told
    exact fail_eq_giveUp whole .notInteger
  · obtain ⟨pair, rfl, rule, text, extent⟩ := told
    have same : pair.text = literal := text
    refine (if_pos rule).trans ?_
    rw [number, same, integerOf]
    cases Integer.parse literal with
    | error fault => exact fail_eq_giveUp extent _
    | ok number =>
        by_cases bounded : number ≤ maximum
        · simp only [pure_bind, if_pos bounded]
          rfl
        · simp only [pure_bind, if_neg bounded]
          exact fail_eq_giveUp extent _
  · obtain ⟨pair, rfl, rule, -, -⟩ := told
    have differs : pair.rule ≠ .integer := fun same => by cases rule.symm.trans same
    exact (if_neg differs).trans (fail_eq_giveUp whole .notInteger)

private theorem setting_eq (whole : attr.extent = layout.whole) (name : List Char)
    (told : IsGiven layout.value value given) : setting source attr name given =
      settle source (atSpot source layout) (settingOf ⟨name, value⟩) := by
  unfold setting settingOf
  generalize String.ofList name = key
  dsimp only
  split
  case h_12 =>
    cases value with
    | none =>
        obtain rfl : given = none := told
        rfl
    | some value =>
        obtain ⟨pair, rfl, -⟩ := told
        exact fail_eq_giveUp whole .flagWithValue
  case h_13 =>
    split
    case h_13 => exact fail_eq_giveUp whole (.unknownAttribute name)
    all_goals contradiction
  all_goals simp only [settle_map, keyword_eq whole told, int_eq whole told, snoop_eq whole told]

end

/-! ### Declarations -/

section

variable {source : Source} {layout : Layout} {found : List (Attribute × AttributeLayout)}

private theorem atSpot_eq_atPart {index : Nat} {one : AttributeLayout}
    (there : layout.attributes[index]? = some one) (spot : Spot) (fault : Fault) :
    atSpot source one (spot, fault) = atPart source layout (spot.part index, fault) := by
  cases spot with
  | whole =>
      have extent : layout.extent (.oneAttribute index) = one.whole := by
        rw [Layout.extent, there]
        rfl
      rw [atPart, Spot.part, Layout.failure, extent]
      rfl
  | value =>
      have extent : layout.extent (.value index) = one.value := by
        rw [Layout.extent, there]
        rfl
      rw [atPart, Spot.part, Layout.failure, extent]
      rfl

private theorem settings_eq {pairs : List Pair}
    (told : List.Forall₂ (fun one pair => IsAttribute one.1 one.2 pair) found pairs)
    (before : List AttributeLayout) (layouts : layout.attributes = before ++ found.map Prod.snd)
    (draft : Draft) (seen : List (List Char)) :
    settings source draft seen pairs = settle source (atPart source layout)
      ((settingsFrom seen before.length (found.map Prod.fst)).map
        (List.foldl Draft.apply draft)) := by
  -- the index of an attribute is the number of those before it
  induction told generalizing before draft seen with
  | nil => rfl
  | @cons one attr others pairs first later ih =>
      obtain ⟨content, place⟩ := one
      obtain ⟨whole, name, givens, inner, named, valued⟩ := first
      have there : layout.attributes[before.length]? = some place := by
        rw [layouts, List.map_cons, List.getElem?_append_right (Nat.le_refl _), Nat.sub_self]
        rfl
      have spots : ∀ spot fault, atSpot source place (spot, fault) =
          atPart source layout (spot.part before.length, fault) := atSpot_eq_atPart there
      rw [settings, inner, child, pure_bind, List.map_cons, settingsFrom]
      dsimp only
      rw [named]
      by_cases again : content.name ∈ seen
      · rw [if_pos (List.contains_iff_mem.mpr again), if_pos again]
        exact (fail_eq_giveUp whole _).trans (congrArg (giveUp source) (spots .whole _))
      · rw [if_neg (fun contained => again (List.contains_iff_mem.mp contained)), if_neg again,
          setting_eq whole _ (isGiven_of_isValue valued)]
        cases settingOf content with
        | error failed =>
            exact congrArg (giveUp source) (spots failed.1 failed.2)
        | ok setting =>
            have following := ih (before ++ [place]) (by rw [layouts, List.append_assoc]; rfl)
              (draft.apply setting) (content.name :: seen)
            rw [List.length_append] at following
            refine following.trans ?_
            dsimp only
            cases settingsFrom (content.name :: seen) (before.length + 1) (others.map Prod.fst) <;>
              rfl

private theorem declaration_eq {label attrlist : Pair} (uid : TxnId)
    (place : label.extent = layout.label)
    (told : List.Forall₂ (fun one pair => IsAttribute one.1 one.2 pair) found attrlist.inner)
    (layouts : layout.attributes = found.map Prod.snd) :
    declaration source uid label attrlist =
      settle source (atPart source layout) (declare uid label.text (found.map Prod.fst)) := by
  rw [declaration, settings_eq told [] layouts, settle_map, bind_map_left, declare, settle_bind]
  congr
  funext settings
  unfold Draft.ofSettings
  dsimp only
  cases (settings.foldl Draft.apply {}).command with
  | none => exact fail_eq_giveUp place _
  | some command => rfl

end

/-! ### Events -/

section

variable {source : Source} {layout : Layout} {found : List (Attribute × AttributeLayout)}

private theorem now_eq {time clock : Pair} (last : Nat) (place : time.extent = layout.time)
    (inside : clock.extent = layout.clock) :
    now source last time clock =
      settle source (atPart source layout) (timeOf last clock.text) := by
  rw [now, number, timeOf]
  cases Integer.parse clock.text with
  | error fault => exact congrArg (· >>= _) (fail_eq_giveUp inside _)
  | ok now =>
      by_cases before : now < last
      · simp only [pure_bind, if_pos before]
        exact fail_eq_giveUp place _
      · simp only [pure_bind, if_neg before]
        rfl

private theorem phase_eq {pair : Pair} (place : pair.extent = layout.phase) :
    phase source pair = settle source (atPart source layout) (phaseOf pair.text) := by
  rw [phase, phaseOf]
  cases Phase.ofName? (String.ofList pair.text) with
  | none => exact fail_eq_giveUp place _
  | some phase => rfl

private theorem record_eq {label : Pair} {attrlist : Option Pair} (declared : List Declared)
    (place : label.extent = layout.label) (layouts : layout.attributes = found.map Prod.snd)
    (told : IsAttrlist found (layout.extent .allAttributes) attrlist) :
    record source declared label attrlist = settle source (atPart source layout)
      (recordOf declared label.text (found.map Prod.fst)) := by
  unfold record recordOf
  cases attrlist with
  | none =>
      obtain rfl : found = [] := told
      cases declared.find? (fun known => known.label = label.text) with
      | none => exact fail_eq_giveUp place _
      | some known => rfl
  | some attrs =>
      obtain ⟨given, whole, all⟩ := told
      have given : found.map Prod.fst ≠ [] := fun absent => given (List.map_eq_nil_iff.mp absent)
      cases declared.find? (fun known => known.label = label.text) with
      | none =>
          dsimp only
          rw [if_neg given, settle_map, declaration_eq _ place all layouts]
      | some known =>
          dsimp only
          rw [if_neg given]
          exact fail_eq_giveUp whole _

private theorem directionOf_eq {pair : Pair} {direction : Direction}
    (told : pair.text = direction.name.toList) : directionOf pair = direction := by
  rw [directionOf, told]
  cases direction <;> rfl

private theorem event_eq {pair : Pair} {placed : Placed} (told : IsEvent source.text placed pair)
    (progress : Progress) : event source progress pair =
      settle source (atPart source placed.layout) (progress.add placed.line placed.statement) := by
  obtain ⟨line, content, layout⟩ := placed
  obtain ⟨-, same, parts, found, inner, tell⟩ := told
  have attrlist : parts.attrlist.toList.head? = parts.attrlist := Option.head?_toList
  -- every part is there, so what is left are the three results in which a fault can lie
  rw [event, inner, same, Parts.inner, Progress.add]
  simp only [child, pure_bind, tell.clock, attrlist, settle_bind]
  rw [now_eq _ tell.time tell.clockExtent, tell.clockText]
  congr
  funext time
  rw [phase_eq tell.phase, tell.phaseText]
  congr
  funext phase
  rw [record_eq _ tell.label tell.layouts tell.attrlist, tell.labelText, tell.contents]
  congr
  funext answer
  rw [directionOf_eq tell.direction]
  rfl

private theorem events_eq {pairs : List Pair} {placed : List Placed}
    (told : List.Forall₂ (IsEvent source.text) placed pairs) (progress : Progress) :
    events source progress (pairs ++ [Grammar.endOfInput]) =
      settle source id (addAll source.text progress placed) := by
  induction told generalizing progress with
  | nil => rfl
  | @cons one pair others pairs first later ih =>
      rw [List.cons_append, events, if_pos first.rule, event_eq first, addAll]
      cases progress.add one.line one.statement with
      | error failed => rfl
      | ok next => exact ih next

end

/-! ### Texts -/

/-- Where the grammar does not match a text, that is explained as by the reader of traces. -/
def Explains (explain : List Char → Failure) (text : List Char) : Prop :=
  ∀ mismatch, statements text = .error mismatch → explain text = mismatch.failure text

section

variable {source : Source}

private theorem build_of_ok {placed : List Placed} (read : statements source.text = .ok placed)
    (explain : List Char → Failure) :
    build source explain = settle source id (parse source.text) := by
  obtain ⟨pair, pairs, matched, inner, told⟩ := Grammar.file_of_ok read
  rw [build, matched, parse, read]
  simp only [child, pure_bind, inner]
  rw [events_eq told, settle_map]
  rfl

private theorem build_of_error {mismatch : Mismatch}
    (failed : statements source.text = .error mismatch)
    (explain : List Char → Failure) :
    build source explain = settle source id (.error (explain source.text)) := by
  rw [build, Grammar.file_of_error failed]
  rfl

private theorem exists_settle (source : Source) (explain : List Char → Failure) :
    ∃ result, build source explain = settle source id result ∧
      (Explains explain source.text → result = parse source.text) := by
  cases read : statements source.text with
  | ok placed => exact ⟨_, build_of_ok read explain, fun _ => rfl⟩
  | error mismatch =>
      refine ⟨_, build_of_error read explain, fun explains => ?_⟩
      rw [explains mismatch read, parse, read]

end

end Builder

/-! ### Reports -/

/-- Either nothing is reported, or one error with the message of the fault that is answered. -/
def ReportedOnce {ε α : Type} (message : ε → String) (report : Report) :
    Except ε α × Report → Prop
  | (.ok _, after) => after.diagnostics = report.diagnostics
  | (.error fault, after) => ∃ place,
      after.diagnostics = report.diagnostics ++ [.located .error (message fault) place]

private theorem reportedOnce_readTrace (report : Report) (name text : String) :
    ReportedOnce Fault.message report (report.readTrace name text) := by
  unfold Report.readTrace
  dsimp only
  cases parse text.toList with
  | ok trace => rfl
  | error failure => exact ⟨_, rfl⟩

/-- A text that is no trace is reported once, however its mismatches are explained: no walk over
the pairs of a text ends for want of a part. With the explanations of the reader of traces, the
walk is that reader. -/
theorem readTrace_reports_once (report : Report) (name text : String) :
    ReportedOnce Fault.message report (report.readTrace name text) ∧
      ∀ explain, ReportedOnce Builder.Unread.message report
          (Builder.readTrace explain report name text) ∧
        (∀ what, (Builder.readTrace explain report name text).1 ≠ .error (.malformed what)) ∧
        (Builder.Explains explain text.toList → Builder.readTrace explain report name text =
          ((report.readTrace name text).1.mapError .fault, (report.readTrace name text).2)) := by
  refine ⟨reportedOnce_readTrace report name text, fun explain => ?_⟩
  obtain ⟨result, built, same⟩ :=
    Builder.exists_settle ⟨report.files.length, text.toList⟩ explain
  unfold Builder.readTrace Report.addFile
  dsimp only
  rw [built]
  refine ⟨?_, ?_, ?_⟩
  · cases result with
    | ok trace => rfl
    | error failure => exact ⟨_, rfl⟩
  · intro what malformed
    cases result <;> cases malformed
  · intro explains
    rw [same explains]
    unfold Report.readTrace Report.addFile
    cases parse text.toList <;> rfl

end Handshake.Trace
