import Handshake.Proofs.Trace
import Handshake.Proofs.Trace.Document
set_option autoImplicit false

/-! Texts with alike statements. A trace depends on what its statements say, but on the order of
their attributes it does not, and on where they stand only by the numbers of their lines. -/

namespace Handshake.Trace

/-- A statement but for the order of its attributes. -/
structure Statement.Alike (other content : Statement) : Prop where
  time : other.time = content.time
  direction : other.direction = content.direction
  phase : other.phase = content.phase
  label : other.label = content.label
  attributes : other.attributes.Perm content.attributes

theorem Statement.Alike.refl (content : Statement) : content.Alike content :=
  ⟨rfl, rfl, rfl, rfl, .refl _⟩

def Event.unlined (event : Event) : Event := { event with line := 0 }

theorem events_ext {events others : List Event}
    (unlined : others.map Event.unlined = events.map Event.unlined)
    (lines : others.map Event.line = events.map Event.line) : others = events := by
  induction events generalizing others with
  | nil => exact List.map_eq_nil_iff.mp lines
  | cons event later ih =>
      cases others with
      | nil => cases lines
      | cons other more =>
          obtain ⟨same, unlined⟩ := List.cons.inj unlined
          obtain ⟨line, lines⟩ := List.cons.inj lines
          have restored : { other.unlined with line := other.line } =
              { event.unlined with line := event.line } := by rw [same, line]
          exact congrArg₂ List.cons restored (ih unlined lines)

private theorem recordOf_perm {declared : List Declared} {label : List Char}
    {given other : List Attribute}
    {record : Transaction} {declares : Bool} (ordered : other.Perm given)
    (found : recordOf declared label given = .ok (record, declares)) :
    recordOf declared label other = .ok (record, declares) := by
  rw [recordOf_eq_ok_iff] at found ⊢
  rcases found with ⟨repeats, rfl, known⟩ | ⟨first, given, unknown, declaring⟩
  · exact .inl ⟨repeats, ordered.eq_nil, known⟩
  · refine .inr ⟨first, ?_, unknown, declare_perm ordered declaring⟩
    rintro rfl
    exact given ordered.nil_eq.symm

/-! ### Adding alike statements -/

structure Progress.Alike (other progress : Progress) : Prop where
  events : other.events.map Event.unlined = progress.events.map Event.unlined
  declared : other.declared = progress.declared
  lastTime : other.lastTime = progress.lastTime

private theorem Progress.Alike.add {other progress next : Progress} (alike : other.Alike progress)
    {content statement : Statement} (same : statement.Alike content) {line : Nat}
    (added : progress.add line content = .ok next) (number : Nat) :
    ∃ following, other.add number statement = .ok following ∧ following.Alike next ∧
      following.events.map Event.line = other.events.map Event.line ++ [number] := by
  obtain ⟨time, phase, record, declares, timed, phased, recorded, rfl⟩ :=
    Progress.add_eq_ok_iff.mp added
  rw [← alike.lastTime, ← same.time] at timed
  rw [← same.phase] at phased
  have found := recordOf_perm same.attributes recorded
  rw [← alike.declared, ← same.label] at found
  refine ⟨_, Progress.add_eq_ok_iff.mpr
    ⟨time, phase, record, declares, timed, phased, found, rfl⟩, ⟨?_, ?_, rfl⟩, ?_⟩
  · rw [List.map_append, List.map_append, alike.events, same.direction]
    rfl
  · rw [alike.declared, same.label]
  · rw [List.map_append]
    rfl

private theorem Progress.Alike.addAll {text : List Char} (whole : List Char)
    {placed others : List Placed}
    (same : List.Forall₂ (fun new old => new.statement.Alike old.statement) others placed)
    {other progress final : Progress} (alike : other.Alike progress)
    (added : addAll text progress placed = .ok final) :
    ∃ last, Trace.addAll whole other others = .ok last ∧ last.Alike final ∧
      last.events.map Event.line = other.events.map Event.line ++ others.map Placed.line := by
  induction same generalizing other progress with
  | nil =>
      cases added
      exact ⟨other, rfl, alike, (List.append_nil _).symm⟩
  | @cons new old news olds first later ih =>
      unfold Trace.addAll at added
      split at added
      · cases added
      · rename_i next stepped
        obtain ⟨following, step, alike, lines⟩ := alike.add first stepped new.line
        obtain ⟨last, rest, alike, more⟩ := ih alike added
        refine ⟨last, ?_, alike, ?_⟩
        · rw [Trace.addAll, step]
          exact rest
        · rw [more, lines, List.append_assoc]
          rfl

/-- Texts with alike statements are traces with the same events and declarations, on the lines
of their statements. -/
theorem parse_alike {text whole : List Char} {placed others : List Placed} {trace : Trace}
    (read : statements text = .ok placed) (reread : statements whole = .ok others)
    (same : List.Forall₂ (fun new old => new.statement.Alike old.statement) others placed)
    (parsed : parse text = .ok trace) :
    ∃ found, parse whole = .ok found ∧ found.declared = trace.declared ∧
      found.events.map Event.unlined = trace.events.map Event.unlined ∧
        found.events.map Event.line = others.map Placed.line := by
  obtain ⟨_, final, stated, added, rfl⟩ := parse_eq_ok_iff.mp parsed
  obtain rfl := Except.ok.inj (read.symm.trans stated)
  have start : Progress.Alike .empty .empty := ⟨rfl, rfl, rfl⟩
  obtain ⟨last, rest, alike, lines⟩ := start.addAll whole same added
  exact ⟨_, parse_eq_ok_iff.mpr ⟨others, last, reread, rest, rfl⟩, alike.declared, alike.events,
    lines⟩

private theorem line_of_parse {text : List Char} {placed : List Placed} {trace : Trace}
    (read : statements text = .ok placed) (parsed : parse text = .ok trace) :
    trace.events.map Event.line = placed.map Placed.line := by
  have alike : List.Forall₂ (fun new old : Placed => new.statement.Alike old.statement)
      placed placed := List.forall₂_same.mpr (fun one _ => .refl one.statement)
  obtain ⟨found, again, -, -, lines⟩ := parse_alike read read alike parsed
  rw [Except.ok.inj (parsed.symm.trans again), lines]

/-! ### Alike documents -/

section

variable {doc other : Document} {trace : Trace}

private theorem exists_placed_of_wellFormed (wellFormed : Document.WellFormed doc) :
    ∃ placed, statements (Document.text doc) = .ok placed ∧
      placed.map Placed.line = (Document.numbered 1 doc).map Prod.fst ∧
        placed.map Placed.statement = (Document.numbered 1 doc).map Prod.snd := by
  obtain ⟨placed, read, same⟩ := Document.statementsFrom_text wellFormed 1
  refine ⟨placed, read, ?_, ?_⟩
  · rw [← same, List.map_map]
    rfl
  · rw [← same, List.map_map]
    rfl

theorem parse_text_alike (wellFormed : Document.WellFormed doc)
    (otherFormed : Document.WellFormed other)
    (alike : List.Forall₂ Statement.Alike ((Document.numbered 1 other).map Prod.snd)
      ((Document.numbered 1 doc).map Prod.snd))
    (parsed : parse (Document.text doc) = .ok trace) :
    trace.events.map Event.line = (Document.numbered 1 doc).map Prod.fst ∧
      ∃ found, parse (Document.text other) = .ok found ∧ found.declared = trace.declared ∧
        found.events.map Event.unlined = trace.events.map Event.unlined ∧
        found.events.map Event.line = (Document.numbered 1 other).map Prod.fst := by
  obtain ⟨placed, read, lines, contents⟩ := exists_placed_of_wellFormed wellFormed
  obtain ⟨others, reread, newLines, newContents⟩ := exists_placed_of_wellFormed otherFormed
  rw [← newContents, ← contents, List.forall₂_map_left_iff, List.forall₂_map_right_iff] at alike
  obtain ⟨found, again, declared, unlined, foundLines⟩ := parse_alike read reread alike parsed
  exact ⟨(line_of_parse read parsed).trans lines, found, again, declared, unlined,
    foundLines.trans newLines⟩

end

end Handshake.Trace
