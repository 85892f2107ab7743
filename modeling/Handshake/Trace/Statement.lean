import Handshake.Trace.Lexeme
set_option autoImplicit false

/-! The statements of a trace, one a line:

  `@time direction phase label attributes`

White space and comments may stand between the parts and are nowhere needed. A
statement is read into its content and, apart from it, its layout: the text that
remained at either end of each part. `statements` reads a whole text and stops at the
furthest point that can be reached, with what could have stood there. -/

namespace Handshake.Trace

/-! ### Content -/

structure Attribute where
  name : List Char
  value : Option Value
  deriving DecidableEq

structure Statement where
  time : List Char
  direction : Direction
  phase : List Char
  label : List Char
  /-- empty if the statement gives none -/
  attributes : List Attribute
  deriving DecidableEq

/-! ### Layout -/

/-- A stretch of a text, given by the text that remains at its beginning and at its
end. -/
structure Extent where
  start : List Char
  stop : List Char

structure AttributeLayout where
  whole : Extent
  /-- where the value stands; the whole attribute if it has none -/
  value : Extent

structure Layout where
  time : Extent
  clock : Extent
  phase : Extent
  label : Extent
  attributes : List AttributeLayout

inductive Part where
  | time
  | clock
  | phase
  | label
  | allAttributes
  | oneAttribute (index : Nat)
  | value (index : Nat)
  deriving DecidableEq

/-- Where a part stands. The attributes reach from the first to the last of them; one
attribute alone takes in the gap behind it, where a second one was looked for. An
attribute that there is not is looked for at the label. -/
def Layout.extent (layout : Layout) : Part → Extent
  | .time => layout.time
  | .clock => layout.clock
  | .phase => layout.phase
  | .label => layout.label
  | .allAttributes =>
      match layout.attributes with
      | [] => layout.label
      | [only] => ⟨only.whole.start, dropGap only.whole.stop⟩
      | first :: second :: rest => ⟨first.whole.start, (rest.getLastD second).whole.stop⟩
  | .oneAttribute index => (layout.attributes[index]?.map AttributeLayout.whole).getD layout.label
  | .value index => (layout.attributes[index]?.map AttributeLayout.value).getD layout.label

structure Placed where
  line : Nat
  statement : Statement
  layout : Layout

/-! ### Mismatches -/

/-- What could have stood at the furthest point reached. -/
inductive Expected where
  | statement
  | integer
  | direction
  | phase
  | label
  | value
  | anotherAttribute
  deriving DecidableEq

/-- A text that is no trace: what could have stood before the remaining text. -/
structure Mismatch where
  expected : Expected
  rest : List Char

def require {α : Type} (expected : Expected) (rest : List Char) : Option α → Except Mismatch α
  | some found => .ok found
  | none => .error ⟨expected, rest⟩

/-! ### Attributes -/

/-- The attribute that a text begins with, if it begins with one: a name, and a value
if an equals sign follows. The gap behind a name without a value, where the equals sign
was looked for, is part of the attribute. -/
def attribute? (text : List Char) :
    Except Mismatch (Option (Attribute × AttributeLayout × List Char)) :=
  match name? text with
  | none => .ok none
  | some (name, afterName) =>
      match dropGap afterName with
      | '=' :: afterSign =>
          match value? (dropGap afterSign) with
          | none => .error ⟨.value, dropGap afterSign⟩
          | some (value, rest) =>
              .ok (some (⟨name, some value⟩, ⟨⟨text, rest⟩, ⟨dropGap afterSign, rest⟩⟩, rest))
      | rest => .ok (some (⟨name, none⟩, ⟨⟨text, rest⟩, ⟨text, rest⟩⟩, rest))

theorem attribute?_shorter {text rest : List Char} {content : Attribute}
    {layout : AttributeLayout} (found : attribute? text = .ok (some (content, layout, rest))) :
    rest.length < text.length := by
  unfold attribute? at found
  split at found
  · simp at found
  · rename_i name afterName named
    have shorter := name?_shorter named
    have gap := dropGap_length_le afterName
    split at found
    · rename_i afterSign sign
      rw [sign, List.length_cons] at gap
      have inner := dropGap_length_le afterSign
      split at found
      · cases found
      · rename_i value remaining valued
        have bounded := value?_shorter valued
        simp only [Except.ok.injEq, Option.some.injEq, Prod.mk.injEq] at found
        rw [← found.2.2]
        omega
    · simp only [Except.ok.injEq, Option.some.injEq, Prod.mk.injEq] at found
      rw [← found.2.2]
      omega

def attributes (text : List Char) :
    Except Mismatch (List (Attribute × AttributeLayout) × List Char) :=
  match _found : attribute? (dropGap text) with
  | .error mismatch => .error mismatch
  | .ok none => .ok ([], text)
  | .ok (some (content, layout, rest)) =>
      (attributes rest).map (fun (later, last) => ((content, layout) :: later, last))
termination_by text.length
decreasing_by exact Nat.lt_of_lt_of_le (attribute?_shorter _found) (dropGap_length_le text)

theorem attributes_not_longer (text : List Char) {found : List (Attribute × AttributeLayout)}
    {rest : List Char} (ended : attributes text = .ok (found, rest)) :
    rest.length ≤ text.length := by
  fun_induction attributes text generalizing found rest with
  | case1 => cases ended
  | case2 =>
      simp only [Except.ok.injEq, Prod.mk.injEq] at ended
      exact Nat.le_of_eq (congrArg List.length ended.2.symm)
  | case3 text content layout remaining read ih =>
      have shorter := attribute?_shorter read
      have gap := dropGap_length_le text
      cases tail : attributes remaining with
      | error mismatch => rw [tail] at ended; cases ended
      | ok later =>
          rw [tail] at ended
          have bounded := ih tail
          simp only [Except.map, Except.ok.injEq, Prod.mk.injEq] at ended
          rw [← ended.2]
          omega

/-! ### Statements -/

/-- The statement that a text begins with, behind its at sign, and what follows. -/
def statement (text afterSign : List Char) :
    Except Mismatch (Statement × Layout × List Char) := do
  let (time, rest) ← require .integer afterSign (Integer.scan afterSign)
  let here := dropGap rest
  let (direction, afterDirection) ← require .direction here (direction? here)
  let phaseStart := dropGap afterDirection
  let (phase, afterPhase) ← require .phase phaseStart (word? Char.isAlpha phaseStart)
  let labelStart := dropGap afterPhase
  let (label, afterLabel) ← require .label labelStart (word? isLabelPart labelStart)
  let (found, last) ← attributes afterLabel
  .ok (⟨time, direction, phase, label, found.map Prod.fst⟩,
    ⟨⟨text, rest⟩, ⟨afterSign, rest⟩, ⟨phaseStart, afterPhase⟩, ⟨labelStart, afterLabel⟩,
      found.map Prod.snd⟩, last)

theorem require_eq_ok {α : Type} {expected : Expected} {rest : List Char} {option : Option α}
    {found : α} (accepted : require expected rest option = .ok found) : option = some found := by
  cases option with
  | none => cases accepted
  | some value =>
      simp only [require, Except.ok.injEq] at accepted
      rw [accepted]

theorem statement_shorter {text afterSign last : List Char} {content : Statement}
    {layout : Layout} (read : statement text afterSign = .ok (content, layout, last)) :
    last.length < afterSign.length := by
  unfold statement at read
  simp only [bind, Except.bind] at read
  repeat' split at read
  all_goals cases read
  rename_i _ time timeRead _ direction directionRead _ phase phaseRead _ label labelRead _ found
    ended
  have timed := scan_shorter (require_eq_ok timeRead)
  have directed := direction?_shorter (require_eq_ok directionRead)
  have phased := word?_not_longer (require_eq_ok phaseRead)
  have labelled := word?_not_longer (require_eq_ok labelRead)
  have attributed := attributes_not_longer _ ended
  have first := dropGap_length_le time.2
  have second := dropGap_length_le direction.2
  have third := dropGap_length_le phase.2
  omega

def statementsFrom (line : Nat) (text : List Char) : Except Mismatch (List Placed) :=
  match _start : dropGap text with
  | [] => .ok []
  | '@' :: afterSign =>
      match _read : statement ('@' :: afterSign) afterSign with
      | .error mismatch => .error mismatch
      | .ok (content, layout, last) =>
          match _ending : dropGap last with
          | [] => .ok [⟨line, content, layout⟩]
          | char :: rest =>
              match _found : lineBreak? (char :: rest) with
              | none => .error ⟨.anotherAttribute, char :: rest⟩
              | some (count, next) =>
                  (statementsFrom (line + count) next).map (⟨line, content, layout⟩ :: ·)
  | char :: rest =>
      match _found : lineBreak? (char :: rest) with
      | none => .error ⟨.statement, char :: rest⟩
      | some (count, next) => statementsFrom (line + count) next
termination_by text.length
decreasing_by
  · have whole := dropGap_length_le text
    have inner := statement_shorter _read
    have gap := dropGap_length_le last
    have broken := lineBreak?_shorter _found
    rw [_start, List.length_cons] at whole
    rw [_ending] at gap
    omega
  · have whole := dropGap_length_le text
    have broken := lineBreak?_shorter _found
    rw [_start] at whole
    omega

def statements (text : List Char) : Except Mismatch (List Placed) := statementsFrom 1 text

end Handshake.Trace
