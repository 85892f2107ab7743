import Handshake.Proofs.Trace.Spaced
set_option autoImplicit false

/-! Documents: texts as their lines are laid out. A line holds the tokens of a statement, or none,
with blanks in front of each; blanks, a comment and a line break may follow. A document whose
tokens can be told apart is read as the statements of its lines, and every text that is read is
the text of such a document. -/

namespace Handshake.Trace

structure Line where
  content : Option Statement
  spaced : List Spaced
  blanks : List Char
  comment : Option (List Char)
  /-- the line break; a carriage return and a line feed end two lines, the second of them empty -/
  ending : Option Char

namespace Line

def tail (line : Line) : List Char :=
  line.blanks ++ ((line.comment.map ('#' :: ·)).getD [] ++ line.ending.toList)

def text (line : Line) : List Char := spacedText line.spaced ++ line.tail

/-- How many lines the end of a line counts for. -/
def feeds (line : Line) : Nat := line.ending.toList.count '\n'

structure WellFormed (line : Line) : Prop where
  tokens : line.spaced.map Spaced.token = (line.content.map Statement.tokens).getD []
  gaps : ∀ spaced ∈ line.spaced, Blank spaced.gap
  reads : ReadsBefore [] line.spaced
  blanks : Blank line.blanks
  comment : ∀ text ∈ line.comment, Unbroken text
  ending : ∀ char ∈ line.ending, isBreak char = true

instance (line : Line) : Decidable line.WellFormed :=
  decidable_of_iff (line.spaced.map Spaced.token = (line.content.map Statement.tokens).getD [] ∧
      (∀ spaced ∈ line.spaced, Blank spaced.gap) ∧ ReadsBefore [] line.spaced ∧
      Blank line.blanks ∧ (∀ text ∈ line.comment.toList, Unbroken text) ∧
      line.ending.all isBreak = true)
    ⟨fun ⟨tokens, gaps, reads, blanks, comment, ending⟩ =>
        ⟨tokens, gaps, reads, blanks,
          fun text member => comment text (Option.mem_toList.mpr member),
          (Option.all_eq_true _ _).mp ending⟩,
      fun ⟨tokens, gaps, reads, blanks, comment, ending⟩ =>
        ⟨tokens, gaps, reads, blanks,
          fun text member => comment text (Option.mem_toList.mp member),
          (Option.all_eq_true _ _).mpr ending⟩⟩

end Line

abbrev Document := List Line

namespace Document

def text (doc : Document) : List Char := doc.flatMap Line.text

structure WellFormed (doc : Document) : Prop where
  lines : ∀ line ∈ doc, line.WellFormed
  ended : doc.Pairwise (fun line _ => line.ending ≠ none)

instance (doc : Document) : Decidable (WellFormed doc) :=
  decidable_of_iff ((∀ line ∈ doc, line.WellFormed) ∧
      doc.Pairwise (fun line _ => line.ending ≠ none))
    ⟨fun holds => ⟨holds.1, holds.2⟩, fun wellFormed => ⟨wellFormed.lines, wellFormed.ended⟩⟩

def feeds : Document → Nat
  | [] => 0
  | line :: rest => line.feeds + feeds rest

/-- The statements, with the numbers of their lines, where the first line has the given number. -/
def numbered (number : Nat) : Document → List (Nat × Statement)
  | [] => []
  | line :: rest =>
      (line.content.map (number, ·)).toList ++ numbered (number + line.feeds) rest

end Document

/-! ### The end of a line -/

section

variable {line : Line} {rest : List Char}

private theorem Line.WellFormed.lineEnd (wellFormed : line.WellFormed)
    (final : line.ending = none → rest = []) :
    ∀ next ∈ (line.ending.toList ++ rest).head?, isBreak next = true := by
  intro next first
  cases ended : line.ending with
  | none =>
      rw [ended, final ended] at first
      cases first
  | some char =>
      rw [ended] at first
      obtain rfl : char = next := Option.some.inj first
      exact wellFormed.ending char ended

private theorem Line.WellFormed.dropGap_tail (wellFormed : line.WellFormed)
    (final : line.ending = none → rest = []) :
    dropGap (line.tail ++ rest) = line.ending.toList ++ rest := by
  have ended := wellFormed.lineEnd final
  rw [Line.tail, List.append_assoc, List.append_assoc, dropGap_append wellFormed.blanks]
  cases commented : line.comment with
  | some text => exact dropGapFrom_true_append (wellFormed.comment text commented) ended
  | none =>
      cases behind : line.ending.toList ++ rest with
      | nil => rfl
      | cons next others =>
          rw [behind] at ended
          exact dropGap_of_break (ended next rfl) others

private theorem Line.WellFormed.atLineEnd (wellFormed : line.WellFormed)
    (final : line.ending = none → rest = []) : AtLineEnd (line.tail ++ rest) := by
  rw [AtLineEnd, wellFormed.dropGap_tail final]
  exact wellFormed.lineEnd final

private theorem Line.WellFormed.atSeam (wellFormed : line.WellFormed)
    (final : line.ending = none → rest = []) : AtSeam (line.tail ++ rest) := by
  rw [Line.tail, List.append_assoc, List.append_assoc]
  cases blanks : line.blanks with
  | cons char others =>
      exact .blank (wellFormed.blanks char (blanks ▸ List.mem_cons_self)) _
  | nil =>
      cases line.comment with
      | some text => exact .cons (by decide) _
      | none =>
          cases ended : line.ending with
          | some char => exact .lineEnd (wellFormed.ending char ended) _
          | none =>
              rw [final ended]
              exact .nil

end

/-! ### Reading documents -/

section

variable {line : Line} {doc : Document}

private theorem Document.wellFormed_nil : Document.WellFormed [] :=
  ⟨List.forall_mem_nil _, .nil⟩

private theorem Document.wellFormed_cons :
    Document.WellFormed (line :: doc) ↔
      line.WellFormed ∧ (line.ending = none → doc = []) ∧ Document.WellFormed doc := by
  constructor
  · rintro ⟨lines, ended⟩
    obtain ⟨first, others⟩ := List.forall_mem_cons.mp lines
    obtain ⟨before, later⟩ := List.pairwise_cons.mp ended
    refine ⟨first, fun unended => ?_, others, later⟩
    exact List.eq_nil_iff_forall_not_mem.mpr (fun other member => before other member unended)
  · rintro ⟨first, final, lines, ended⟩
    refine ⟨List.forall_mem_cons.mpr ⟨first, lines⟩, List.pairwise_cons.mpr ⟨?_, ended⟩⟩
    intro other member unended
    rw [final unended] at member
    cases member

private theorem Document.text_cons (line : Line) (rest : Document) :
    Document.text (line :: rest) = spacedText line.spaced ++ (line.tail ++ Document.text rest) := by
  rw [Document.text, List.flatMap_cons, Line.text, List.append_assoc]
  rfl

private theorem statementsFrom_of_end {number : Nat} {text : List Char}
    (ended : dropGap text = []) :
    statementsFrom number text = .ok [] := by
  rw [statementsFrom]
  split
  · rfl
  · rename_i same
    cases ended.symm.trans same
  · rename_i same
    cases ended.symm.trans same

private theorem statementsFrom_of_lineBreak {number : Nat} {text rest : List Char} {char : Char}
    (ended : dropGap text = char :: rest) (broken : isBreak char = true) :
    statementsFrom number text = statementsFrom (number + [char].count '\n') rest := by
  obtain ⟨count, next, found, same⟩ := lineBreak?_cons broken number rest
  rw [statementsFrom, ← same]
  split
  · rename_i none
    cases ended.symm.trans none
  · rename_i sign
    cases ended.symm.trans sign
    cases broken
  · rename_i behind
    cases ended.symm.trans behind
    split
    · rename_i none
      cases found.symm.trans none
    · rename_i ends
      cases found.symm.trans ends
      rfl

private theorem statementsFrom_of_last {number : Nat} {text afterSign last : List Char}
    {content : Statement} {layout : Layout} (sign : dropGap text = '@' :: afterSign)
    (read : statement ('@' :: afterSign) afterSign = .ok (content, layout, last))
    (ended : dropGap last = []) :
    statementsFrom number text = .ok [⟨number, content, layout⟩] := by
  rw [statementsFrom]
  split
  · rename_i none
    cases sign.symm.trans none
  · rename_i behind start
    obtain rfl : afterSign = behind := (List.cons.inj (sign.symm.trans start)).2
    split
    · rename_i failed
      cases read.symm.trans failed
    · rename_i stated
      cases read.symm.trans stated
      split
      · rfl
      · rename_i behind
        cases ended.symm.trans behind
  · rename_i noSign other
    exact absurd (List.cons.inj (sign.symm.trans other)).1.symm noSign

private theorem Line.WellFormed.statement {content : Statement} {rest : List Char}
    (wellFormed : line.WellFormed) (stated : line.content = some content)
    (final : line.ending = none → rest = []) :
    ∃ afterSign layout last,
      dropGap (spacedText line.spaced ++ (line.tail ++ rest)) = '@' :: afterSign ∧
        statement ('@' :: afterSign) afterSign = .ok (content, layout, last) ∧
          dropGap last = line.ending.toList ++ rest := by
  have tokens := wellFormed.tokens
  rw [stated] at tokens
  have reads := @ReadsBefore.seam _ [] [] _ wellFormed.reads (wellFormed.atSeam final)
  obtain ⟨afterSign, layout, last, sign, read, ended⟩ :=
    statement_of_spaced tokens wellFormed.gaps reads (wellFormed.atLineEnd final)
  exact ⟨afterSign, layout, last, sign, read, ended.trans (wellFormed.dropGap_tail final)⟩

private theorem Line.WellFormed.dropGap_of_none {rest : List Char} (wellFormed : line.WellFormed)
    (unstated : line.content = none) (final : line.ending = none → rest = []) :
    dropGap (spacedText line.spaced ++ (line.tail ++ rest)) = line.ending.toList ++ rest := by
  have tokens := wellFormed.tokens
  rw [unstated] at tokens
  rw [List.map_eq_nil_iff.mp tokens]
  exact wellFormed.dropGap_tail final

/-- A document is read as the statements of its lines. -/
theorem Document.statementsFrom_text (wellFormed : Document.WellFormed doc) (number : Nat) :
    ∃ placed, statementsFrom number (Document.text doc) = .ok placed ∧
      placed.map (fun one => (one.line, one.statement)) = Document.numbered number doc := by
  induction doc generalizing number with
  | nil => exact ⟨[], statementsFrom_of_end rfl, rfl⟩
  | cons line rest ih =>
      obtain ⟨first, unended, others⟩ := Document.wellFormed_cons.mp wellFormed
      have final : line.ending = none → Document.text rest = [] :=
        fun ended => congrArg Document.text (unended ended)
      obtain ⟨placed, read, numbered⟩ := ih others (number + line.feeds)
      rw [Document.text_cons, Document.numbered, ← numbered]
      cases stated : line.content with
      | none =>
          have gap := first.dropGap_of_none stated final
          cases ended : line.ending with
          | none =>
              rw [ended, final ended] at gap
              rw [Line.feeds, ended, final ended, statementsFrom_of_end rfl] at read
              cases read
              exact ⟨[], by rw [final ended]; exact statementsFrom_of_end gap, rfl⟩
          | some char =>
              rw [Line.feeds, ended] at read
              rw [ended] at gap
              refine ⟨placed, ?_, rfl⟩
              rw [statementsFrom_of_lineBreak gap (first.ending char ended)]
              exact read
      | some content =>
          obtain ⟨afterSign, layout, last, sign, statementRead, gap⟩ :=
            first.statement stated final
          refine ⟨⟨number, content, layout⟩ :: placed, ?_, rfl⟩
          cases ended : line.ending with
          | none =>
              rw [ended, final ended] at gap
              rw [Line.feeds, ended, final ended, statementsFrom_of_end rfl] at read
              cases read
              exact statementsFrom_of_last sign statementRead gap
          | some char =>
              rw [Line.feeds, ended] at read
              rw [ended] at gap
              rw [statementsFrom_of_statement sign statementRead gap (first.ending char ended)]
              exact map_eq_ok_iff.mpr ⟨placed, read, rfl⟩

theorem Document.numbered_append (number : Nat) (before after : Document) :
    Document.numbered number (before ++ after) =
      Document.numbered number before ++
        Document.numbered (number + Document.feeds before) after := by
  induction before generalizing number with
  | nil => rfl
  | cons line rest ih =>
      rw [List.cons_append, Document.numbered, Document.numbered, ih, List.append_assoc,
        Document.feeds, Nat.add_assoc]

end

/-! ### Every text that is read is that of a document -/

section

variable {text rest : List Char} {spaced : List Spaced} {content : Option Statement}
  {ending : Option Char}

private theorem exists_document_cons
    (tokens : spaced.map Spaced.token = (content.map Statement.tokens).getD [])
    (gaps : ∀ one ∈ spaced, Blank one.gap) (reads : ReadsBefore rest spaced)
    (broken : ∀ char ∈ ending, isBreak char = true) {doc : Document}
    (wellFormed : Document.WellFormed doc) (final : ending = none → doc = [])
    (ended : dropGap rest = ending.toList ++ Document.text doc) :
    ∃ doc, Document.WellFormed doc ∧ Document.text doc = spacedText spaced ++ rest := by
  have lineEnd : ∀ next ∈ (dropGap rest).head?, isBreak next = true := by
    rw [ended]
    intro next first
    cases ending with
    | none =>
        rw [final rfl] at first
        cases first
    | some char =>
        obtain rfl : char = next := Option.some.inj first
        exact broken char rfl
  obtain ⟨blanks, comment, same, blank, inLine⟩ := exists_blanks_comment lineEnd
  let line : Line := ⟨content, spaced, blanks, comment, ending⟩
  have alone : ReadsBefore [] spaced := @ReadsBefore.seam _ [] _ [] reads .nil
  have first : line.WellFormed := ⟨tokens, gaps, alone, blank, inLine, broken⟩
  refine ⟨line :: doc, Document.wellFormed_cons.mpr ⟨first, final, wellFormed⟩, ?_⟩
  rw [Document.text_cons, same, ended, Line.tail, List.append_assoc, List.append_assoc]

private theorem exists_document_of_lineBreak {char : Char} {count : Nat} {next : List Char}
    (found : lineBreak? (char :: rest) = some (count, next)) {doc : Document}
    (wellFormed : Document.WellFormed doc) (same : Document.text doc = next) :
    isBreak char = true ∧ ∃ doc, Document.WellFormed doc ∧ Document.text doc = rest := by
  unfold lineBreak? at found
  split at found
  · rename_i feed
    cases feed
    cases found
    exact ⟨rfl, doc, wellFormed, same⟩
  · rename_i both
    cases both
    cases found
    have gap : dropGap ('\n' :: Document.text doc) = ['\n'] ++ Document.text doc := rfl
    refine ⟨rfl, same ▸ @exists_document_cons _ [] none (some '\n') rfl
      (List.forall_mem_nil _) trivial ?_ doc wellFormed
      (fun absent => absurd absent (Option.some_ne_none _)) gap⟩
    rintro _ ⟨⟩
    rfl
  · rename_i alone
    cases alone
    cases found
    exact ⟨rfl, doc, wellFormed, same⟩
  · cases found

/-- A text that is read is the text of a document. -/
theorem exists_document {number : Nat} {placed : List Placed}
    (read : statementsFrom number text = .ok placed) :
    ∃ doc, Document.WellFormed doc ∧ Document.text doc = text := by
  fun_induction statementsFrom number text generalizing placed with
  | case1 number text gap =>
      exact @exists_document_cons text [] none none rfl (List.forall_mem_nil _) trivial
        (by rintro _ ⟨⟩) [] Document.wellFormed_nil (fun _ => rfl) gap
  | case2 => cases read
  | case3 number text afterSign sign content layout last stated gap =>
      obtain ⟨spaced, rest, rfl, tokens, gaps, reads, remains⟩ :=
        exists_spaced_of_statement stated sign
      exact @exists_document_cons _ _ (some content) none tokens gaps reads
        (by rintro _ ⟨⟩) [] Document.wellFormed_nil (fun _ => rfl) (remains.trans gap)
  | case4 => cases read
  | case5 number text afterSign sign content layout last stated char behind gap count next found
      ih =>
      obtain ⟨later, others, -⟩ := map_eq_ok_iff.mp read
      obtain ⟨doc, wellFormed, same⟩ := ih others
      obtain ⟨broken, doc, wellFormed, rfl⟩ := exists_document_of_lineBreak found wellFormed same
      obtain ⟨spaced, rest, rfl, tokens, gaps, reads, remains⟩ :=
        exists_spaced_of_statement stated sign
      refine @exists_document_cons _ _ (some content) (some char) tokens gaps reads ?_ doc
        wellFormed (fun absent => absurd absent (Option.some_ne_none _)) (remains.trans gap)
      rintro _ ⟨⟩
      exact broken
  | case6 => cases read
  | case7 number text char behind noSign gap count next found ih =>
      obtain ⟨doc, wellFormed, same⟩ := ih read
      obtain ⟨broken, doc, wellFormed, rfl⟩ := exists_document_of_lineBreak found wellFormed same
      refine @exists_document_cons text [] none (some char) rfl (List.forall_mem_nil _)
        trivial ?_ doc wellFormed
        (fun absent => absurd absent (Option.some_ne_none _)) gap
      rintro _ ⟨⟩
      exact broken

end

end Handshake.Trace
