import Handshake.Proofs.Trace.Grammar.Lexeme
import Handshake.Proofs.Trace.Reading
set_option autoImplicit false

/-! The pairs of a statement. Where a statement can be read, the grammar has the pair of an event,
the parts of which are told by the content of the statement and by its layout. Where none can, the
grammar has no such pair, or stops at the equals sign of an attribute whose value is missing. -/

namespace Handshake.Trace.Grammar

open Matcher

/-! ### What pairs stand for -/

def IsValue (extent : Extent) : Option Value → List Pair → Prop
  | none, pairs => pairs = []
  | some value, pairs => ∃ whole inner, pairs = [whole] ∧ whole.inner = [inner] ∧
      inner.rule = ruleOf value ∧ inner.text = value.text ∧ inner.extent = extent

structure IsAttribute (content : Attribute) (layout : AttributeLayout) (pair : Pair) : Prop where
  extent : pair.extent = layout.whole
  inner : ∃ name given, pair.inner = name :: given ∧ name.text = content.name ∧
    IsValue layout.value content.value given

def IsAttrlist (found : List (Attribute × AttributeLayout)) (extent : Extent) :
    Option Pair → Prop
  | none => found = []
  | some pair => found ≠ [] ∧ pair.extent = extent ∧
      List.Forall₂ (fun one pair => IsAttribute one.1 one.2 pair) found pair.inner

/-- The pairs of a statement. -/
structure Parts where
  time : Pair
  clock : Pair
  direction : Pair
  phase : Pair
  label : Pair
  attrlist : Option Pair

def Parts.inner (parts : Parts) : List Pair :=
  parts.time :: parts.direction :: parts.phase :: parts.label :: parts.attrlist.toList

structure Parts.Tell (parts : Parts) (content : Statement) (layout : Layout)
    (found : List (Attribute × AttributeLayout)) : Prop where
  time : parts.time.extent = layout.time
  clock : parts.time.inner = [parts.clock]
  clockExtent : parts.clock.extent = layout.clock
  clockText : parts.clock.text = content.time
  direction : parts.direction.text = content.direction.name.toList
  phase : parts.phase.extent = layout.phase
  phaseText : parts.phase.text = content.phase
  label : parts.label.extent = layout.label
  labelText : parts.label.text = content.label
  contents : content.attributes = found.map Prod.fst
  layouts : layout.attributes = found.map Prod.snd
  attrlist : IsAttrlist found (layout.extent .allAttributes) parts.attrlist

/-! ### Repetitions with gaps between them -/

section

variable {matcher : Matcher} {text rest : List Char} {found : List Pair}

theorem both_skip (matcher : Matcher) (text : List Char) :
    both skip matcher text = matcher (dropGap text) := by
  rw [both_of_some (skip_eq text)]
  cases matcher (dropGap text) <;> rfl

theorem repeated_skip_of_none (absent : matcher (dropGap text) = none) :
    repeated (both skip matcher) text = ([], text) :=
  repeated_of_none ((both_skip matcher text).trans absent)

theorem repeated_skip_of_some (matched : matcher (dropGap text) = some (found, rest))
    (shorter : rest.length < text.length) :
    repeated (both skip matcher) text = (found ++ (repeated (both skip matcher) rest).1,
      (repeated (both skip matcher) rest).2) :=
  repeated_of_some ((both_skip matcher text).trans matched) shorter

theorem spacedStar_of_none (absent : matcher text = none) :
    spacedStar matcher text = some ([], text) :=
  either_of_none (both_of_none absent)

theorem spacedStar_of_some (matched : matcher (dropGap text) = some (found, rest))
    (shorter : rest.length < text.length) :
    spacedStar matcher (dropGap text) = some (repeated (both skip matcher) text) := by
  rw [repeated_skip_of_some matched shorter]
  refine either_of_some ?_
  rw [both_of_some matched]
  rfl

end

/-! ### Attributes -/

section

variable {text rest last : List Char} {content : Attribute} {layout : AttributeLayout}
  {mismatch : Mismatch} {found : List (Attribute × AttributeLayout)}

private theorem attr_of_name {name behind : List Char} (named : name? text = some (name, behind)) :
    attr text = (optional (spaced (char '=') Grammar.value) (dropGap behind)).map
      (fun (more, last) => ([⟨.attr, text, last, ⟨.ident, text, behind, []⟩ :: more⟩], last)) := by
  have matched : ident text = some ([⟨.ident, text, behind, []⟩], behind) := by
    rw [ident_eq, named]
    rfl
  rw [attr, rule, spaced_of_some matched, Option.map_map]
  rfl

private theorem attr_of_none (absent : attribute? text = .ok none) : attr text = none := by
  unfold attribute? at absent
  split at absent
  · rename_i unnamed
    rw [attr, rule, spaced_of_none (by rw [ident_eq, unnamed]; rfl)]
    rfl
  · split at absent
    · split at absent <;> cases absent
    · cases absent

private theorem attr_of_some (read : attribute? text = .ok (some (content, layout, rest))) :
    layout.whole = ⟨text, rest⟩ ∧
      ∃ pair, attr text = some ([pair], rest) ∧ IsAttribute content layout pair := by
  unfold attribute? at read
  split at read
  · cases read
  · rename_i name behind named
    have nameText : Pair.text ⟨.ident, text, behind, []⟩ = name :=
      Pair.text_eq (name?_eq_some_iff.mp named).1
    split at read
    · rename_i afterSign sign
      split at read
      · cases read
      · rename_i value remaining valued
        cases read
        have given : optional (spaced (char '=') Grammar.value) (dropGap behind) =
            some ([⟨.value, dropGap afterSign, rest,
              [⟨ruleOf value, dropGap afterSign, rest, []⟩]⟩], rest) := by
          refine either_of_some ?_
          rw [sign, spaced_of_some (char_self '=' afterSign), value_eq, valued]
          rfl
        refine ⟨rfl, _, by rw [attr_of_name named, given]; rfl, rfl, _, _, rfl, nameText, ?_⟩
        exact ⟨_, _, rfl, rfl, rfl, Pair.text_eq (value?_append_text valued), rfl⟩
    · rename_i noSign
      cases read
      have bare : optional (spaced (char '=') Grammar.value) (dropGap behind) =
          some ([], dropGap behind) :=
        either_of_none (spaced_of_none (char_of_ne noSign))
      exact ⟨rfl, _, by rw [attr_of_name named, bare]; rfl, rfl, _, _, rfl, nameText, rfl⟩

private theorem attr_of_error (failed : attribute? text = .error mismatch) :
    ∃ pairs afterSign, attr text = some (pairs, '=' :: afterSign) ∧
      ('=' :: afterSign).length < text.length := by
  unfold attribute? at failed
  split at failed
  · cases failed
  · rename_i name behind named
    split at failed
    · rename_i afterSign sign
      split at failed
      · rename_i unvalued
        have bare : optional (spaced (char '=') Grammar.value) (dropGap behind) =
            some ([], '=' :: afterSign) := by
          rw [sign]
          refine either_of_none ?_
          rw [spaced_of_some (char_self '=' afterSign), value_eq, unvalued]
          rfl
        refine ⟨_, afterSign, by rw [attr_of_name named, bare]; rfl, ?_⟩
        rw [← sign]
        exact Nat.lt_of_le_of_lt (dropGap_length_le behind) (name?_shorter named)
      · cases failed
    · cases failed

private theorem dropGap_sign (afterSign : List Char) :
    dropGap ('=' :: afterSign) = '=' :: afterSign :=
  dropGap_cons rfl (by decide) afterSign

private theorem attr_sign (afterSign : List Char) : attr ('=' :: afterSign) = none :=
  attr_of_none (attribute?_eq_none (by rintro _ ⟨⟩; rfl))

private theorem repeated_attr (read : attributes text = .ok (found, last)) :
    ∃ pairs, repeated (both skip attr) text = (pairs, last) ∧
      List.Forall₂ (fun one pair => IsAttribute one.1 one.2 pair) found pairs := by
  fun_induction attributes text generalizing found last with
  | case1 => cases read
  | case2 text absent =>
      cases read
      exact ⟨[], repeated_skip_of_none (attr_of_none absent), .nil⟩
  | case3 text content layout remaining attributed ih =>
      obtain ⟨⟨later, last⟩, others, same⟩ := map_eq_ok_iff.mp read
      cases same
      obtain ⟨-, pair, matched, told⟩ := attr_of_some attributed
      obtain ⟨pairs, following, all⟩ := ih others
      have shorter := Nat.lt_of_lt_of_le (attribute?_shorter attributed) (dropGap_length_le text)
      refine ⟨pair :: pairs, ?_, .cons told all⟩
      rw [repeated_skip_of_some matched shorter, following]
      rfl

private theorem repeated_attr_of_error (failed : attributes text = .error mismatch) :
    ∃ pairs afterSign, repeated (both skip attr) text = (pairs, '=' :: afterSign) := by
  fun_induction attributes text with
  | case1 text _ unvalued =>
      obtain ⟨pairs, afterSign, matched, shorter⟩ := attr_of_error unvalued
      have ended : repeated (both skip attr) ('=' :: afterSign) = ([], '=' :: afterSign) :=
        repeated_skip_of_none ((congrArg attr (dropGap_sign afterSign)).trans (attr_sign afterSign))
      refine ⟨pairs ++ [], afterSign, ?_⟩
      rw [repeated_skip_of_some matched (Nat.lt_of_lt_of_le shorter (dropGap_length_le text)),
        ended]
  | case2 => cases failed
  | case3 text content layout remaining attributed ih =>
      obtain ⟨-, pair, matched, -⟩ := attr_of_some attributed
      obtain ⟨pairs, afterSign, following⟩ := ih (map_eq_error_iff.mp failed)
      have shorter := Nat.lt_of_lt_of_le (attribute?_shorter attributed) (dropGap_length_le text)
      refine ⟨pair :: pairs, afterSign, ?_⟩
      rw [repeated_skip_of_some matched shorter, following]
      rfl

private theorem attrlist_of_none (absent : attribute? (dropGap text) = .ok none) :
    attrlist (dropGap text) = none := by
  rw [attrlist, rule, spacedPlus, spaced_of_none (attr_of_none absent)]
  rfl

private theorem attrlist_of_attr {pairs more : List Pair} {behind : List Char}
    (matched : attr (dropGap text) = some (pairs, rest))
    (others : spacedStar attr (dropGap rest) = some (more, behind)) :
    attrlist (dropGap text) =
      some ([⟨.attrlist, dropGap text, behind, pairs ++ more⟩], behind) := by
  rw [attrlist, rule, spacedPlus, spaced_of_some matched, others]
  rfl

private theorem attributes_of_error (failed : attribute? (dropGap text) = .error mismatch) :
    attributes text = .error mismatch := by
  rw [attributes]
  split
  · rename_i again
    cases again.symm.trans failed
    rfl
  · rename_i absent
    cases failed.symm.trans absent
  · rename_i found
    cases failed.symm.trans found

private theorem attributes_cases (read : attributes text = .ok (found, last)) :
    (attribute? (dropGap text) = .ok none ∧ found = [] ∧ last = text) ∨
      ∃ content layout rest later, attribute? (dropGap text) = .ok (some (content, layout, rest)) ∧
        attributes rest = .ok (later, last) ∧ found = (content, layout) :: later := by
  cases first : attribute? (dropGap text) with
  | error mismatch => cases (attributes_of_error first).symm.trans read
  | ok one =>
      rcases one with _ | ⟨content, layout, rest⟩
      · cases (attributes_of_none first).symm.trans read
        exact .inl ⟨rfl, rfl, rfl⟩
      · obtain ⟨⟨later, last⟩, others, same⟩ :=
          map_eq_ok_iff.mp ((attributes_of_some first).symm.trans read)
        cases same
        exact .inr ⟨content, layout, rest, later, rfl, others, rfl⟩

private theorem last_of_attributes (read : attributes text = .ok (found, last)) :
    last = ((found.map Prod.snd).map (fun layout => layout.whole.stop)).getLastD text := by
  induction found generalizing text with
  | nil =>
      obtain ⟨-, -, rfl⟩ | ⟨_, _, _, _, -, -, same⟩ := attributes_cases read
      · rfl
      · cases same
  | cons first others ih =>
      obtain ⟨-, same, -⟩ | ⟨content, layout, rest, later, attributed, following, same⟩ :=
        attributes_cases read
      · cases same
      · cases same
        rw [ih following, List.map_cons, List.map_cons, List.getLastD_cons,
          (attr_of_some attributed).1]

private theorem optional_attrlist (read : attributes text = .ok (found, last)) (layout : Layout)
    (layouts : layout.attributes = found.map Prod.snd) :
    ∃ pair rest, optional attrlist (dropGap text) = some (pair.toList, rest) ∧
      dropGap rest = dropGap last ∧ IsAttrlist found (layout.extent .allAttributes) pair := by
  obtain ⟨absent, rfl, rfl⟩ | ⟨content, first, rest, later, attributed, following, rfl⟩ :=
    attributes_cases read
  · exact ⟨none, dropGap last, either_of_none (attrlist_of_none absent), dropGap_dropGap last, rfl⟩
  · obtain ⟨whole, pair, matched, told⟩ := attr_of_some attributed
    have given := List.cons_ne_nil (content, first) later
    obtain ⟨absent, rfl, rfl⟩ | ⟨_, second, _, others, another, -, rfl⟩ :=
      attributes_cases following
    · -- the gap behind the only attribute is skipped before another one is looked for
      have matching := attrlist_of_attr matched (spacedStar_of_none (attr_of_none absent))
      refine ⟨some _, _, either_of_some matching, dropGap_dropGap _, given, ?_, .cons told .nil⟩
      rw [Layout.extent, layouts]
      show _ = Extent.mk first.whole.start (dropGap first.whole.stop)
      rw [whole]
      rfl
    · obtain ⟨pairs, repeats, all⟩ := repeated_attr following
      obtain ⟨-, _, anotherMatched, -⟩ := attr_of_some another
      have shorter := Nat.lt_of_lt_of_le (attribute?_shorter another) (dropGap_length_le rest)
      have star := spacedStar_of_some anotherMatched shorter
      rw [repeats] at star
      have matching := attrlist_of_attr matched star
      refine ⟨some _, _, either_of_some matching, rfl, given, ?_, .cons told all⟩
      have behind : last = ((others.map Prod.snd).getLastD second).whole.stop := by
        rw [last_of_attributes following, List.map_cons, List.map_cons, List.getLastD_cons,
          List.getLastD_map]
      rw [Layout.extent, layouts]
      show _ = Extent.mk first.whole.start ((others.map Prod.snd).getLastD second).whole.stop
      rw [whole, ← behind]
      rfl

private theorem attr_shorter {pairs : List Pair} (matched : attr text = some (pairs, rest)) :
    rest.length < text.length := by
  cases read : attribute? text with
  | error mismatch =>
      obtain ⟨_, afterSign, again, shorter⟩ := attr_of_error read
      cases matched.symm.trans again
      exact shorter
  | ok one =>
      rcases one with _ | ⟨content, layout, behind⟩
      · cases matched.symm.trans (attr_of_none read)
      · obtain ⟨-, _, again, -⟩ := attr_of_some read
        cases matched.symm.trans again
        exact attribute?_shorter read

private theorem optional_attrlist_of_error (failed : attributes text = .error mismatch) :
    ∃ pairs rest afterSign, optional attrlist (dropGap text) = some (pairs, rest) ∧
      dropGap rest = '=' :: afterSign := by
  obtain ⟨pairs, afterSign, repeats⟩ := repeated_attr_of_error failed
  cases first : attr (dropGap text) with
  | none =>
      have absent : attrlist (dropGap text) = none := by
        rw [attrlist, rule, spacedPlus, spaced_of_none first]
        rfl
      rw [repeated_skip_of_none first] at repeats
      refine ⟨_, _, afterSign, either_of_none absent, ?_⟩
      rw [(Prod.mk.inj repeats).2, dropGap_sign, dropGap_sign]
  | some one =>
      obtain ⟨found, rest⟩ := one
      have shorter := Nat.lt_of_lt_of_le (attr_shorter first) (dropGap_length_le text)
      rw [repeated_skip_of_some first shorter] at repeats
      have remains := (Prod.mk.inj repeats).2
      cases second : attr (dropGap rest) with
      | none =>
          have matching := attrlist_of_attr first (spacedStar_of_none second)
          rw [repeated_skip_of_none second] at remains
          refine ⟨_, _, afterSign, either_of_some matching, ?_⟩
          rw [dropGap_dropGap]
          exact (congrArg dropGap remains).trans (dropGap_sign afterSign)
      | some another =>
          have shorter := Nat.lt_of_lt_of_le (attr_shorter second) (dropGap_length_le rest)
          have matching := attrlist_of_attr first (spacedStar_of_some second shorter)
          refine ⟨_, _, afterSign, either_of_some matching, ?_⟩
          rw [remains, dropGap_sign]

end

/-! ### Statements -/

section

variable {text rest last afterSign : List Char} {content : Statement} {layout : Layout}
  {mismatch : Mismatch}

theorem event_of_ne (noSign : ∀ afterSign, text ≠ '@' :: afterSign) : event text = none := by
  rw [event, rule, spaced_of_none (time_of_ne noSign)]
  rfl

section

variable {time phase label behindTime behindDirection behindPhase behindLabel : List Char}
  {way : Direction}

private theorem time_of_scan (timed : Integer.scan afterSign = some (time, behindTime)) :
    Grammar.time ('@' :: afterSign) = some ([⟨.time, '@' :: afterSign, behindTime,
      [⟨.integer, afterSign, behindTime, []⟩]⟩], behindTime) := by
  rw [time_cons, timed]
  rfl

private theorem direction_of_way (directed : direction? text = some (way, rest)) :
    direction text = some ([⟨.direction, text, rest, []⟩], rest) := by
  rw [direction_eq, directed]
  rfl

private theorem phase_of_word (phased : word? Char.isAlpha text = some (phase, rest)) :
    Grammar.phase text = some ([⟨.phase, text, rest, []⟩], rest) := by
  rw [phase_eq, phased]
  rfl

private theorem label_of_word (labelled : word? isLabelPart text = some (label, rest)) :
    Grammar.label text = some ([⟨.label, text, rest, []⟩], rest) := by
  rw [label_eq, labelled]
  rfl

private theorem event_of_parts (timed : Integer.scan afterSign = some (time, behindTime))
    (directed : direction? (dropGap behindTime) = some (way, behindDirection))
    (phased : word? Char.isAlpha (dropGap behindDirection) = some (phase, behindPhase))
    (labelled : word? isLabelPart (dropGap behindPhase) = some (label, behindLabel)) :
    event ('@' :: afterSign) = (optional attrlist (dropGap behindLabel)).map (fun (more, rest) =>
      ([⟨.event, '@' :: afterSign, rest,
        ⟨.time, '@' :: afterSign, behindTime, [⟨.integer, afterSign, behindTime, []⟩]⟩ ::
          ⟨.direction, dropGap behindTime, behindDirection, []⟩ ::
          ⟨.phase, dropGap behindDirection, behindPhase, []⟩ ::
          ⟨.label, dropGap behindPhase, behindLabel, []⟩ :: more⟩], rest)) := by
  rw [event, rule, spaced_of_some (time_of_scan timed), spaced_of_some (direction_of_way directed),
    spaced_of_some (phase_of_word phased), spaced_of_some (label_of_word labelled)]
  cases optional attrlist (dropGap behindLabel) <;> rfl

end

theorem event_of_ok (read : statement ('@' :: afterSign) afterSign = .ok (content, layout, last)) :
    ∃ parts found rest, event ('@' :: afterSign) =
        some ([⟨.event, '@' :: afterSign, rest, Parts.inner parts⟩], rest) ∧
      dropGap rest = dropGap last ∧ parts.Tell content layout found := by
  obtain ⟨time, behindTime, way, behindDirection, phase, behindPhase, label, behindLabel, found, _,
    timed, directed, phased, labelled, attributed, answer⟩ := statement_eq_ok_iff.mp read
  cases answer
  obtain ⟨attrs, rest, matched, remains, told⟩ := optional_attrlist attributed
    ⟨⟨'@' :: afterSign, behindTime⟩, ⟨afterSign, behindTime⟩,
      ⟨dropGap behindDirection, behindPhase⟩, ⟨dropGap behindPhase, behindLabel⟩,
      found.map Prod.snd⟩ rfl
  refine ⟨⟨_, ⟨.integer, afterSign, behindTime, []⟩, _, _, _, attrs⟩, found, rest,
    (event_of_parts timed directed phased labelled).trans (congrArg (Option.map _) matched),
    remains, ?_⟩
  exact {
    time := rfl
    clock := rfl
    clockExtent := rfl
    clockText := Pair.text_eq (scan_append timed).1
    direction := Pair.text_eq (direction?_append directed)
    phase := rfl
    phaseText := Pair.text_eq (word?_eq_some_iff.mp phased).1
    label := rfl
    labelText := Pair.text_eq (word?_eq_some_iff.mp labelled).1
    contents := rfl
    layouts := rfl
    attrlist := told }

/-- An event that matches where no statement can be read lacks the value of an attribute. -/
theorem event_of_error (failed : statement ('@' :: afterSign) afterSign = .error mismatch) :
    event ('@' :: afterSign) = none ∨
      ∃ pairs rest behind, event ('@' :: afterSign) = some (pairs, rest) ∧
        dropGap rest = '=' :: behind := by
  cases matched : event ('@' :: afterSign) with
  | none => exact .inl rfl
  | some answer =>
      obtain ⟨_, fromTime, -⟩ := Option.map_eq_some_iff.mp matched
      obtain ⟨_, behindTime, _, timeMatched, fromDirection⟩ := spaced_eq_some fromTime
      obtain ⟨⟨time, _⟩, timed, same⟩ :=
        Option.map_eq_some_iff.mp ((time_cons afterSign).symm.trans timeMatched)
      cases same
      obtain ⟨_, behindDirection, _, directionMatched, fromPhase⟩ := spaced_eq_some fromDirection
      obtain ⟨⟨way, _⟩, directed, same⟩ :=
        Option.map_eq_some_iff.mp ((direction_eq _).symm.trans directionMatched)
      cases same
      obtain ⟨_, behindPhase, _, phaseMatched, fromLabel⟩ := spaced_eq_some fromPhase
      obtain ⟨⟨phase, _⟩, phased, same⟩ :=
        Option.map_eq_some_iff.mp ((phase_eq _).symm.trans phaseMatched)
      cases same
      obtain ⟨_, behindLabel, _, labelMatched, -⟩ := spaced_eq_some fromLabel
      obtain ⟨⟨label, _⟩, labelled, same⟩ :=
        Option.map_eq_some_iff.mp ((label_eq _).symm.trans labelMatched)
      cases same
      have whole := event_of_parts timed directed phased labelled
      cases attributed : attributes behindLabel with
      | ok found =>
          obtain ⟨_, accepted⟩ :=
            statement_of_parts ('@' :: afterSign) timed directed phased labelled attributed
          cases accepted.symm.trans failed
      | error unvalued =>
          obtain ⟨pairs, rest, behind, attrs, remains⟩ := optional_attrlist_of_error attributed
          have same := matched.symm.trans (whole.trans (congrArg (Option.map _) attrs))
          cases same
          exact .inr ⟨_, rest, behind, rfl, remains⟩

end

end Handshake.Trace.Grammar
