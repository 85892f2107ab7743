import Handshake.Proofs.Trace.Grammar.Tree
set_option autoImplicit false

/-! The pairs of a text. The grammar matches a text exactly if its statements can be read, and then
has the pair of an event for each of them, in their order, and one for the end of the text. -/

namespace Handshake.Trace.Grammar

open Matcher

def lineOf (text rest : List Char) : Nat :=
  1 + (text.take (text.length - rest.length)).count '\n'

/-- A pair is that of a statement of a text. -/
structure IsEvent (text : List Char) (placed : Placed) (pair : Pair) : Prop where
  rule : pair.rule = .event
  line : lineOf text pair.start = placed.line
  parts : ∃ parts found, pair.inner = Parts.inner parts ∧
    parts.Tell placed.statement placed.layout found

def endOfInput : Pair := ⟨.endOfInput, [], [], []⟩

/-! ### Lines -/

section

variable {text rest last afterSign next : List Char} {content : Statement} {layout : Layout}
  {mismatch : Mismatch} {pairs : List Pair}

private theorem line_of_some {count : Nat} (matched : optional event text = some (pairs, rest))
    (found : lineBreak? (dropGap rest) = some (count, next)) : line text = some (pairs, next) := by
  rw [line, spaced_of_some matched, newline_eq, found]
  exact congrArg (fun all => some (all, next)) (List.append_nil pairs)

private theorem line_of_none (matched : optional event text = some (pairs, rest))
    (absent : lineBreak? (dropGap rest) = none) : line text = none := by
  rw [line, spaced_of_some matched, newline_eq, absent]
  rfl

private theorem ending_of_nil (matched : optional event text = some (pairs, rest))
    (ended : dropGap rest = []) : ending text = some (pairs ++ [endOfInput], []) := by
  rw [ending, spaced_of_some matched, ended]
  rfl

private theorem ending_of_cons {char : Char} {behind : List Char}
    (matched : optional event text = some (pairs, rest)) (more : dropGap rest = char :: behind) :
    ending text = none := by
  rw [ending, spaced_of_some matched, more]
  rfl

private theorem optional_event_of_ne (noSign : ∀ afterSign, text ≠ '@' :: afterSign) :
    optional event text = some ([], text) :=
  either_of_none (event_of_ne noSign)

private theorem optional_event (text : List Char) :
    ∃ pairs rest, optional event text = some (pairs, rest) ∧
      (lineBreak? (dropGap rest) = none ∨ (dropGap rest).length ≤ text.length) := by
  by_cases sign : ∃ afterSign, text = '@' :: afterSign
  · obtain ⟨afterSign, rfl⟩ := sign
    cases read : statement ('@' :: afterSign) afterSign with
    | ok answer =>
        obtain ⟨content, layout, last⟩ := answer
        obtain ⟨parts, found, rest, matched, remains, -⟩ := event_of_ok read
        refine ⟨_, rest, either_of_some matched, .inr ?_⟩
        rw [remains]
        have shorter := Nat.lt_of_le_of_lt (dropGap_length_le last) (statement_shorter read)
        exact Nat.le_succ_of_le (Nat.le_of_lt shorter)
    | error mismatch =>
        obtain absent | ⟨pairs, rest, behind, matched, remains⟩ := event_of_error read
        · exact ⟨[], _, either_of_none absent, .inr (dropGap_length_le _)⟩
        · refine ⟨pairs, rest, either_of_some matched, .inl ?_⟩
          rw [remains]
          rfl
  · have noSign : ∀ afterSign, text ≠ '@' :: afterSign := fun rest same => sign ⟨rest, same⟩
    exact ⟨[], text, optional_event_of_ne noSign, .inr (dropGap_length_le text)⟩

private theorem line_shorter (matched : line text = some (pairs, next)) :
    next.length < text.length := by
  obtain ⟨events, rest, found, absent | bounded⟩ := optional_event text
  · cases matched.symm.trans (line_of_none found absent)
  · cases broken : lineBreak? (dropGap rest) with
    | none => cases matched.symm.trans (line_of_none found broken)
    | some ends =>
        cases matched.symm.trans (line_of_some found broken)
        exact Nat.lt_of_lt_of_le (lineBreak?_shorter broken) bounded

private theorem file_eq (text : List Char) :
    file text = (ending (dropGap (repeated (both skip line) text).2)).map (fun (more, last) =>
      ([⟨.file, text, last, (repeated (both skip line) text).1 ++ more⟩], last)) := by
  have lines : ∃ rest, spacedStar line (dropGap text) =
      some ((repeated (both skip line) text).1, rest) ∧
        dropGap rest = dropGap (repeated (both skip line) text).2 := by
    cases first : line (dropGap text) with
    | none =>
        rw [repeated_skip_of_none first]
        exact ⟨_, spacedStar_of_none first, dropGap_dropGap text⟩
    | some one =>
        have shorter := Nat.lt_of_lt_of_le (line_shorter first) (dropGap_length_le text)
        exact ⟨_, spacedStar_of_some first shorter, rfl⟩
  obtain ⟨rest, matched, remains⟩ := lines
  rw [file, rule, both_skip, both_of_some matched, both_skip, remains, Option.map_map]
  rfl

private theorem lineOf_of_startsLine {number : Nat} (starts : StartsLine text number rest)
    (within : WithinLine rest last) : lineOf text last = number := by
  obtain ⟨lines, rfl, -, rfl⟩ := starts
  obtain ⟨part, rfl, inLine⟩ := within
  rw [lineOf, ← List.append_assoc, List.length_append, Nat.add_sub_cancel, List.take_left,
    List.count_append, List.count_eq_zero.mpr inLine]
  rfl

end

/-! ### Texts -/

section

variable {text rest last afterSign next : List Char} {content : Statement} {layout : Layout}
  {mismatch : Mismatch} {number : Nat} {placed : List Placed}

private theorem optional_event_of_gap {char : Char} {others : List Char}
    (noSign : char = '@' → False)
    (gap : dropGap rest = char :: others) :
    optional event (dropGap rest) = some ([], dropGap rest) := by
  apply optional_event_of_ne
  intro afterSign same
  exact noSign (List.cons.inj (gap.symm.trans same)).1

private theorem optional_event_of_ok (starts : StartsLine text number rest)
    (sign : dropGap rest = '@' :: afterSign)
    (read : statement ('@' :: afterSign) afterSign = .ok (content, layout, last)) :
    ∃ pair behind, optional event (dropGap rest) = some ([pair], behind) ∧
      dropGap behind = dropGap last ∧ IsEvent text ⟨number, content, layout⟩ pair := by
  obtain ⟨parts, found, behind, matched, remains, told⟩ := event_of_ok read
  have within := withinLine_dropGap rest
  rw [sign] at within ⊢
  exact ⟨_, behind, either_of_some matched, remains, rfl, lineOf_of_startsLine starts within,
    parts, found, rfl, told⟩

private theorem repeated_line_of_some {pairs : List Pair}
    (matched : line (dropGap rest) = some (pairs, next)) :
    repeated (both skip line) rest = (pairs ++ (repeated (both skip line) next).1,
      (repeated (both skip line) next).2) :=
  repeated_skip_of_some matched
    (Nat.lt_of_lt_of_le (line_shorter matched) (dropGap_length_le rest))

private theorem events_of_ok (starts : StartsLine text number rest)
    (read : statementsFrom number rest = .ok placed) :
    ∃ pairs more last, repeated (both skip line) rest = (pairs, last) ∧
      ending (dropGap last) = some (more ++ [endOfInput], []) ∧
      List.Forall₂ (IsEvent text) placed (pairs ++ more) := by
  fun_induction statementsFrom number rest generalizing placed with
  | case1 number rest ended =>
      cases read
      have absent : optional event (dropGap rest) = some ([], dropGap rest) :=
        optional_event_of_ne (by rw [ended]; rintro _ ⟨⟩)
      have noMore : dropGap (dropGap rest) = [] := (dropGap_dropGap rest).trans ended
      have noLine : line (dropGap rest) = none := line_of_none absent (by rw [noMore]; rfl)
      exact ⟨[], [], rest, repeated_skip_of_none noLine, ending_of_nil absent noMore, .nil⟩
  | case2 => cases read
  | case3 number rest afterSign sign content layout last stated ended =>
      cases read
      obtain ⟨pair, behind, matched, remains, told⟩ := optional_event_of_ok starts sign stated
      have noMore : dropGap behind = [] := remains.trans ended
      have noLine : line (dropGap rest) = none := line_of_none matched (by rw [noMore]; rfl)
      exact ⟨[], [pair], rest, repeated_skip_of_none noLine, ending_of_nil matched noMore,
        .cons told .nil⟩
  | case4 => cases read
  | case5 number rest afterSign sign content layout last stated char others ended count next
      found ih =>
      obtain ⟨later, following, rfl⟩ := map_eq_ok_iff.mp read
      obtain ⟨pair, behind, matched, remains, told⟩ := optional_event_of_ok starts sign stated
      have broken := (congrArg lineBreak? (remains.trans ended)).trans found
      have within := (standsIn_of_statement starts sign stated).2
      rw [ended] at within
      obtain ⟨pairs, more, last, repeats, finished, all⟩ :=
        ih (starts.beyond within found) following
      refine ⟨pair :: pairs, more, last, ?_, finished, .cons told all⟩
      rw [repeated_line_of_some (line_of_some matched broken), repeats]
      rfl
  | case6 => cases read
  | case7 number rest char others noSign gap count next found ih =>
      have bare := optional_event_of_gap noSign gap
      have same : dropGap (dropGap rest) = char :: others := (dropGap_dropGap rest).trans gap
      have matching := line_of_some bare ((congrArg lineBreak? same).trans found)
      have within := withinLine_dropGap rest
      rw [gap] at within
      obtain ⟨pairs, more, last, repeats, finished, all⟩ := ih (starts.beyond within found) read
      refine ⟨pairs, more, last, ?_, finished, all⟩
      rw [repeated_line_of_some matching, repeats]
      rfl

private theorem ending_of_stuck {pairs : List Pair} {behind others : List Char} {char : Char}
    (matched : optional event (dropGap rest) = some (pairs, behind))
    (remains : dropGap behind = char :: others) (unbroken : lineBreak? (char :: others) = none) :
    ending (dropGap (repeated (both skip line) rest).2) = none := by
  have noLine : line (dropGap rest) = none := line_of_none matched (by rw [remains, unbroken])
  rw [repeated_skip_of_none noLine]
  exact ending_of_cons matched remains

/-- Where a statement cannot be read, the grammar does not get to the end of the text. -/
theorem ending_of_error (failed : statementsFrom number rest = .error mismatch) :
    ending (dropGap (repeated (both skip line) rest).2) = none := by
  fun_induction statementsFrom number rest with
  | case1 => cases failed
  | case2 number rest afterSign sign other unread =>
      obtain absent | ⟨pairs, behind, others, matched, remains⟩ := event_of_error unread
      · rw [← sign] at absent
        exact ending_of_stuck (either_of_none absent) ((dropGap_dropGap rest).trans sign) rfl
      · rw [← sign] at matched
        exact ending_of_stuck (either_of_some matched) remains rfl
  | case3 => cases failed
  | case4 number rest afterSign sign content layout last stated char others ended unbroken =>
      obtain ⟨parts, found, behind, matched, remains, -⟩ := event_of_ok stated
      rw [← sign] at matched
      exact ending_of_stuck (either_of_some matched) (remains.trans ended) unbroken
  | case5 number rest afterSign sign content layout last stated char others ended count next
      found ih =>
      obtain ⟨parts, _, behind, matched, remains, -⟩ := event_of_ok stated
      rw [← sign] at matched
      have matching := line_of_some (either_of_some matched)
        ((congrArg lineBreak? (remains.trans ended)).trans found)
      rw [repeated_line_of_some matching]
      exact ih (map_eq_error_iff.mp failed)
  | case6 number rest char others noSign gap unbroken =>
      have bare := optional_event_of_gap noSign gap
      exact ending_of_stuck bare ((dropGap_dropGap rest).trans gap) unbroken
  | case7 number rest char others noSign gap count next found ih =>
      have bare := optional_event_of_gap noSign gap
      have same : dropGap (dropGap rest) = char :: others := (dropGap_dropGap rest).trans gap
      have matching := line_of_some bare ((congrArg lineBreak? same).trans found)
      rw [repeated_line_of_some matching]
      exact ih failed

/-- The grammar matches a text whose statements can be read, with an event for each of them. -/
theorem file_of_ok (read : statements text = .ok placed) :
    ∃ pair events, file text = some ([pair], []) ∧ pair.inner = events ++ [endOfInput] ∧
      List.Forall₂ (IsEvent text) placed events := by
  have starts : StartsLine text 1 text := ⟨[], rfl, by rintro _ ⟨⟩, rfl⟩
  obtain ⟨pairs, more, last, repeats, finished, all⟩ := events_of_ok starts read
  refine ⟨⟨.file, text, [], pairs ++ (more ++ [endOfInput])⟩, pairs ++ more, ?_,
    (List.append_assoc _ _ _).symm, all⟩
  rw [file_eq, repeats, finished]
  rfl

theorem file_of_error (failed : statements text = .error mismatch) : file text = none := by
  rw [file_eq, ending_of_error failed]
  rfl

end

end Handshake.Trace.Grammar
