import Handshake.Proofs.Trace.Alike
set_option autoImplicit false

/-! The layout of a trace. Blanks may be put between tokens and at either end of a line, comments
behind its last token, and lines without a statement between lines: the trace remains the same,
but for the numbers of the lines behind those that were put in. -/

namespace Handshake.Trace

/-! ### Edits -/

/-- Blanks or a comment are put into a line. -/
inductive Line.Edit (line : Line) : Line → Prop where
  | space {earlier later : List Spaced} {front back : List Char} {token : Token}
      (stands : line.spaced = earlier ++ ⟨front ++ back, token⟩ :: later) {blanks : List Char}
      (blank : Blank blanks) :
      Edit line { line with spaced := earlier ++ ⟨front ++ (blanks ++ back), token⟩ :: later }
  | trail {front back : List Char} (stands : line.blanks = front ++ back) {blanks : List Char}
      (blank : Blank blanks) : Edit line { line with blanks := front ++ (blanks ++ back) }
  | comment (uncommented : line.comment = none) {text : List Char}
      (inLine : Unbroken text) : Edit line { line with comment := some text }
  /-- at the end of a line that had one, be it blanks or another comment -/
  | extend {old : List Char} (stands : line.comment = some old) {text : List Char}
      (inLine : Unbroken text) :
      Edit line { line with comment := some (old ++ text) }

/-- A line that is put in: how many statements stand before it, and how many lines it counts for. -/
structure Insertion where
  statements : Nat
  feeds : Nat

/-- Any number of edits, with the lines that they put in. -/
inductive Document.Edited (doc : Document) : List Insertion → Document → Prop where
  | unchanged : Edited doc [] doc
  | line {insertions : List Insertion} {before after : Document} {old new : Line}
      (edited : Edited doc insertions (before ++ old :: after)) (edit : old.Edit new) :
      Edited doc insertions (before ++ new :: after)
  | insert {insertions : List Insertion} {before after : Document} {new : Line}
      (edited : Edited doc insertions (before ++ after)) (wellFormed : new.WellFormed)
      (unstated : new.content = none) (ended : ∀ line ∈ before ++ [new], line.ending ≠ none) :
      Edited doc (insertions ++ [⟨(before.filterMap Line.content).length, new.feeds⟩])
        (before ++ new :: after)

def Insertion.move (lines : List Nat) (insertion : Insertion) : List Nat :=
  lines.take insertion.statements ++
    (lines.drop insertion.statements).map (· + insertion.feeds)

def inserted (trace : Trace) (insertion : Insertion) : Trace :=
  { trace with
    events := trace.events.take insertion.statements ++
      (trace.events.drop insertion.statements).map (fun event =>
        { event with line := event.line + insertion.feeds }) }

/-! ### An edited document -/

section

variable {line new : Line} {before after doc other : Document} {insertions : List Insertion}

private theorem ReadsBefore.spaced {earlier later : List Spaced}
    {front back blanks rest : List Char}
    {token : Token} (reads : ReadsBefore rest (earlier ++ ⟨front ++ back, token⟩ :: later))
    (blank : Blank blanks) :
    ReadsBefore rest (earlier ++ ⟨front ++ (blanks ++ back), token⟩ :: later) := by
  cases blanks with
  | nil => exact reads
  | cons char others =>
      have seam := AtSeam.blank (blank char List.mem_cons_self)
        (others ++ (back ++ (token.text ++ (spacedText later ++ rest))))
      rw [readsBefore_append, spacedText_cons, Spaced.text] at reads ⊢
      obtain ⟨earlierRead, laterRead⟩ := reads
      simp only [List.append_assoc] at earlierRead ⊢
      exact ⟨earlierRead.seam seam, laterRead⟩

private theorem Line.Edit.wellFormed (edit : line.Edit new) (wellFormed : line.WellFormed) :
    new.WellFormed := by
  cases edit with
  | @space earlier later front back token stands blanks blank =>
      obtain ⟨tokens, gaps, reads, trailing, comment, ending⟩ := wellFormed
      rw [stands] at tokens gaps reads
      refine ⟨?_, ?_, reads.spaced blank, trailing, comment, ending⟩
      · rw [← tokens, List.map_append, List.map_append]
        rfl
      · intro one member
        rcases List.mem_append.mp member with inside | among
        · exact gaps one (List.mem_append_left _ inside)
        · rcases List.mem_cons.mp among with rfl | behind
          · have gap := gaps _ List.mem_append_cons_self
            simp only [Blank, List.forall_mem_append] at gap blank ⊢
            exact ⟨gap.1, blank, gap.2⟩
          · exact gaps one (List.mem_append_right _ (List.mem_cons_of_mem _ behind))
  | trail stands blank =>
      have trailing := wellFormed.blanks
      rw [stands] at trailing
      refine { wellFormed with blanks := ?_ }
      simp only [Blank, List.forall_mem_append] at trailing blank ⊢
      exact ⟨trailing.1, blank, trailing.2⟩
  | comment uncommented inLine =>
      refine { wellFormed with comment := ?_ }
      rintro _ ⟨⟩
      exact inLine
  | extend stands inLine =>
      refine { wellFormed with comment := ?_ }
      rintro _ ⟨⟩
      exact List.forall_mem_append.mpr ⟨wellFormed.comment _ stands, inLine⟩

private theorem Line.Edit.same (edit : line.Edit new) :
    new.content = line.content ∧ new.ending = line.ending := by
  cases edit <;> exact ⟨rfl, rfl⟩

private theorem Document.numbered_add (number feeds : Nat) (doc : Document) :
    Document.numbered (number + feeds) doc =
      (Document.numbered number doc).map (fun (line, content) => (line + feeds, content)) := by
  induction doc generalizing number with
  | nil => rfl
  | cons line rest ih =>
      rw [Document.numbered, Document.numbered, Nat.add_right_comm, ih, List.map_append]
      cases line.content <;> rfl

private theorem Document.length_numbered (number : Nat) (doc : Document) :
    (Document.numbered number doc).length = (doc.filterMap Line.content).length := by
  induction doc generalizing number with
  | nil => rfl
  | cons line rest ih =>
      rw [Document.numbered, List.length_append, ih]
      cases stated : line.content with
      | none =>
          rw [List.filterMap_cons_none stated]
          exact Nat.zero_add _
      | some content =>
          rw [List.filterMap_cons_some stated]
          exact Nat.add_comm _ _

private theorem Document.numbered_insert (unstated : new.content = none) (number : Nat) :
    Document.numbered number (before ++ new :: after) =
      (Document.numbered number (before ++ after)).take (before.filterMap Line.content).length ++
        ((Document.numbered number (before ++ after)).drop
          (before.filterMap Line.content).length).map
            (fun (line, content) => (line + new.feeds, content)) := by
  have split : Document.numbered number (before ++ new :: after) =
      Document.numbered number before ++
        (Document.numbered (number + Document.feeds before) after).map
          (fun (line, content) => (line + new.feeds, content)) := by
    rw [numbered_append, ← numbered_add, Document.numbered, unstated]
    rfl
  rw [split, numbered_append, ← length_numbered number before, List.take_left, List.drop_left]

private theorem Document.Edited.wellFormed (edited : Document.Edited doc insertions other)
    (wellFormed : Document.WellFormed doc) : Document.WellFormed other := by
  induction edited with
  | unchanged => exact wellFormed
  | @line insertions before after old new edited edit ih =>
      obtain ⟨lines, ended⟩ := ih
      obtain ⟨-, ending⟩ := edit.same
      simp only [List.forall_mem_append, List.forall_mem_cons] at lines
      simp only [List.pairwise_append, List.pairwise_cons, List.forall_mem_cons] at ended
      constructor
      · simp only [List.forall_mem_append, List.forall_mem_cons]
        exact ⟨lines.1, edit.wellFormed lines.2.1, lines.2.2⟩
      · simp only [List.pairwise_append, List.pairwise_cons, List.forall_mem_cons, ending]
        exact ended
  | @insert insertions before after new edited newWellFormed unstated closed ih =>
      obtain ⟨lines, ended⟩ := ih
      simp only [List.forall_mem_append, List.forall_mem_cons] at lines closed
      simp only [List.pairwise_append] at ended
      constructor
      · simp only [List.forall_mem_append, List.forall_mem_cons]
        exact ⟨lines.1, newWellFormed, lines.2⟩
      · simp only [List.pairwise_append, List.pairwise_cons, List.forall_mem_cons]
        exact ⟨ended.1, ⟨fun _ _ => closed.2.1, ended.2.1⟩,
          fun line member => ⟨closed.1 line member, ended.2.2 line member⟩⟩

private theorem Document.Edited.numbered (edited : Document.Edited doc insertions other)
    (number : Nat) :
    (Document.numbered number other).map Prod.snd = (Document.numbered number doc).map Prod.snd ∧
      (Document.numbered number other).map Prod.fst =
        insertions.foldl Insertion.move ((Document.numbered number doc).map Prod.fst) := by
  induction edited with
  | unchanged => exact ⟨rfl, rfl⟩
  | @line insertions before after old new edited edit ih =>
      obtain ⟨content, ending⟩ := edit.same
      have same : Document.numbered number (before ++ new :: after) =
          Document.numbered number (before ++ old :: after) := by
        rw [Document.numbered_append, Document.numbered_append, Document.numbered,
          Document.numbered, content, Line.feeds, Line.feeds, ending]
      rw [same]
      exact ih
  | @insert insertions before after new edited newWellFormed unstated closed ih =>
      obtain ⟨contents, lines⟩ := ih
      rw [Document.numbered_insert unstated]
      constructor
      · rw [← contents, List.map_append, List.map_map]
        conv_rhs => rw [← List.take_append_drop (before.filterMap Line.content).length
          (Document.numbered number (before ++ after)), List.map_append]
        rfl
      · rw [List.foldl_append, ← lines, List.map_append, List.map_map, List.foldl_cons,
          List.foldl_nil, Insertion.move, ← List.map_take, ← List.map_drop, List.map_map]
        rfl

end

/-! ### The trace of an edited document -/

section

variable {doc other : Document} {insertions : List Insertion} {text : List Char} {trace : Trace}

private theorem unlined_inserted (trace : Trace) (insertion : Insertion) :
    (trace.inserted insertion).events.map Event.unlined = trace.events.map Event.unlined := by
  rw [inserted, List.map_append, List.map_map]
  conv_rhs => rw [← List.take_append_drop insertion.statements trace.events, List.map_append]
  rfl

private theorem line_inserted (trace : Trace) (insertion : Insertion) :
    (trace.inserted insertion).events.map Event.line =
      insertion.move (trace.events.map Event.line) := by
  rw [inserted, Insertion.move, List.map_append, List.map_map, ← List.map_take, ← List.map_drop,
    List.map_map]
  rfl

private theorem foldl_inserted (trace : Trace) (insertions : List Insertion) :
    (insertions.foldl inserted trace).declared = trace.declared ∧
      (insertions.foldl inserted trace).events.map Event.unlined =
        trace.events.map Event.unlined ∧
      (insertions.foldl inserted trace).events.map Event.line =
        insertions.foldl Insertion.move (trace.events.map Event.line) := by
  induction insertions generalizing trace with
  | nil => exact ⟨rfl, rfl, rfl⟩
  | cons first later ih =>
      obtain ⟨declared, unlined, lines⟩ := ih (trace.inserted first)
      rw [List.foldl_cons, declared, unlined, lines, unlined_inserted, line_inserted]
      exact ⟨rfl, rfl, rfl⟩

private theorem parse_of_edited (parsed : parse text = .ok trace)
    (wellFormed : Document.WellFormed doc)
    (same : Document.text doc = text) (edited : Document.Edited doc insertions other) :
    parse (Document.text other) = .ok (insertions.foldl inserted trace) := by
  subst same
  obtain ⟨contents, moved⟩ := edited.numbered 1
  have alike : List.Forall₂ Statement.Alike ((Document.numbered 1 other).map Prod.snd)
      ((Document.numbered 1 doc).map Prod.snd) := by
    rw [contents]
    exact List.forall₂_same.mpr (fun content _ => .refl content)
  obtain ⟨lines, found, again, declared, unlined, foundLines⟩ :=
    parse_text_alike wellFormed (edited.wellFormed wellFormed) alike parsed
  obtain ⟨keptDeclared, keptUnlined, movedLines⟩ := foldl_inserted trace insertions
  have events : found.events = (insertions.foldl inserted trace).events := by
    refine events_ext (unlined.trans keptUnlined.symm) ?_
    rw [foundLines, moved, movedLines, lines]
  rw [again]
  cases found
  exact congrArg Except.ok (congrArg₂ Trace.mk events (declared.trans keptDeclared.symm))

/-- A trace does not depend on its layout. Its text is that of a document, and however blanks,
comments and lines without a statement are put into such a document, its text is the same trace
again, but for the numbers of the lines. -/
theorem layout_irrelevant (parsed : parse text = .ok trace) :
    (∃ doc, Document.WellFormed doc ∧ Document.text doc = text) ∧
      ∀ doc, Document.WellFormed doc → Document.text doc = text →
        ∀ insertions other, Document.Edited doc insertions other →
          parse (Document.text other) = .ok (insertions.foldl inserted trace) := by
  obtain ⟨placed, -, read, -⟩ := parse_eq_ok_iff.mp parsed
  exact ⟨exists_document read, fun _ wellFormed same _ _ edited =>
    parse_of_edited parsed wellFormed same edited⟩

end

def requestAndEnd : Document :=
  [⟨some ⟨"0".toList, .forward, "BeginRequest".toList, "a".toList,
      [⟨"cmd".toList, some (.word "read".toList)⟩]⟩,
    [⟨[], .time "0".toList⟩, ⟨[], .direction .forward⟩, ⟨[' '], .phase "BeginRequest".toList⟩,
      ⟨[' '], .label "a".toList⟩, ⟨[' '], .name "cmd".toList⟩, ⟨[], .sign⟩,
      ⟨[], .value (.word "read".toList)⟩],
    [], none, some '\n'⟩,
  ⟨some ⟨"1".toList, .backward, "EndRequest".toList, "a".toList, []⟩,
    [⟨[], .time "1".toList⟩, ⟨[' '], .direction .backward⟩, ⟨[' '], .phase "EndRequest".toList⟩,
      ⟨[' '], .label "a".toList⟩],
    [], none, none⟩]

theorem layout_irrelevant_of_requestAndEnd :
    ∃ trace,
      parse "@0fw BeginRequest a cmd=read\n@1 bw EndRequest a".toList = .ok trace ∧
      trace.events.map Event.line = [1, 2] ∧
      parse "\t@0fw BeginRequest a cmd= read# taken\n # end\n@1 bw EndRequest a".toList =
        .ok (trace.inserted ⟨1, 1⟩) := by
  have accepted : (parse "@0fw BeginRequest a cmd=read\n@1 bw EndRequest a".toList).toOption.map
      (fun trace => trace.events.map Event.line) = some [1, 2] := by
    decide +kernel
  obtain ⟨trace, parsed, lines⟩ := exists_parse_of_toOption accepted
  have tab := @Document.Edited.line requestAndEnd [] [] _ _ _ .unchanged
    (@Line.Edit.space _ [] _ [] [] _ rfl ['\t'] (by decide))
  have blank := @Document.Edited.line _ _ [] _ _ _ tab
    (@Line.Edit.space _ (_ :: _ :: _ :: _ :: _ :: _ :: []) [] [] [] _ rfl [' '] (by decide))
  have comment := @Document.Edited.line _ _ [] _ _ _ blank
    (@Line.Edit.comment _ rfl " taken".toList (by decide))
  have line := @Document.Edited.insert _ _ [_] [_] ⟨none, [], [' '], some " end".toList, some '\n'⟩
    comment (by decide) rfl (by decide)
  exact ⟨trace, parsed, lines,
    (layout_irrelevant parsed).2 requestAndEnd (by decide) (by decide) _ _ line⟩

end Handshake.Trace
