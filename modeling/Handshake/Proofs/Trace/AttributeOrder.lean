import Handshake.Proofs.Trace.Alike
set_option autoImplicit false

/-! The order of the attributes of a declaration. However the texts of the attributes are put in
order, with a space in front of each, the trace is the same; and its record says what each
attribute says, wherever that stands, and the default for the attributes that are not given. -/

namespace Handshake.Trace

/-! ### Attributes as they are written -/

/-- An attribute with the blanks in front of its equals sign and of its value. -/
structure Spelling where
  attr : Attribute
  beforeSign : List Char
  beforeValue : List Char
  deriving DecidableEq

def Spelling.spaced (gap : List Char) (spelling : Spelling) : List Spaced :=
  ⟨gap, .name spelling.attr.name⟩ ::
    (spelling.attr.value.map (fun value =>
      [⟨spelling.beforeSign, .sign⟩, ⟨spelling.beforeValue, .value value⟩])).getD []

/-- A line gives a statement: the tokens in front of the attributes, and each attribute behind a
gap. -/
structure Line.Gives (line : Line) (content : Statement) (front : List Spaced)
    (written : List (List Char × Spelling)) : Prop where
  stated : line.content = some content
  spaced : line.spaced = front ++ written.flatMap (fun (gap, spelling) => spelling.spaced gap)
  front : front.map Spaced.token = content.head
  attributes : written.map (fun (_, spelling) => spelling.attr) = content.attributes

def Line.reordered (line : Line) (content : Statement) (front : List Spaced)
    (ordered : List Spelling) : Line :=
  { line with
    content := some { content with attributes := ordered.map Spelling.attr }
    spaced := front ++ ordered.flatMap (Spelling.spaced [' ']) }

section

variable {line : Line} {content : Statement} {front : List Spaced}
  {written : List (List Char × Spelling)} {ordered : List Spelling}

private theorem Spelling.token_spaced (gap : List Char) (spelling : Spelling) :
    (spelling.spaced gap).map Spaced.token = spelling.attr.tokens := by
  rw [Spelling.spaced, Attribute.tokens]
  cases spelling.attr.value <;> rfl

private theorem exists_written {spaced : List Spaced} {given : List Attribute}
    (tokens : spaced.map Spaced.token = given.flatMap Attribute.tokens) :
    ∃ written : List (List Char × Spelling),
      spaced = written.flatMap (fun (gap, spelling) => spelling.spaced gap) ∧
        written.map (fun (_, spelling) => spelling.attr) = given := by
  induction given generalizing spaced with
  | nil => exact ⟨[], List.map_eq_nil_iff.mp tokens, rfl⟩
  | cons attr more ih =>
      obtain ⟨first, later, rfl, named, others⟩ := List.map_eq_append_iff.mp tokens
      obtain ⟨written, rfl, attributes⟩ := ih others
      obtain ⟨spelling, gap, rfl, rfl⟩ :
          ∃ spelling gap, first = Spelling.spaced gap spelling ∧ spelling.attr = attr := by
        rcases attr with ⟨name, _ | value⟩
        · obtain ⟨⟨gap, _⟩, rest, rfl, rfl, ended⟩ := List.map_eq_cons_iff.mp named
          obtain rfl := List.map_eq_nil_iff.mp ended
          exact ⟨⟨⟨name, none⟩, [], []⟩, gap, rfl, rfl⟩
        · obtain ⟨⟨gap, _⟩, _, rfl, rfl, fromSign⟩ := List.map_eq_cons_iff.mp named
          obtain ⟨⟨beforeSign, _⟩, _, rfl, rfl, fromValue⟩ := List.map_eq_cons_iff.mp fromSign
          obtain ⟨⟨beforeValue, _⟩, _, rfl, rfl, ended⟩ := List.map_eq_cons_iff.mp fromValue
          obtain rfl := List.map_eq_nil_iff.mp ended
          exact ⟨⟨⟨name, some value⟩, beforeSign, beforeValue⟩, gap, rfl, rfl⟩
      exact ⟨(gap, spelling) :: written, rfl, congrArg (spelling.attr :: ·) attributes⟩

private theorem Line.WellFormed.exists_gives (wellFormed : line.WellFormed)
    (stated : line.content = some content) : ∃ front written, line.Gives content front written := by
  have tokens := wellFormed.tokens
  rw [stated] at tokens
  obtain ⟨front, later, split, head, others⟩ := List.map_eq_append_iff.mp tokens
  obtain ⟨written, rfl, attributes⟩ := exists_written others
  exact ⟨front, written, stated, split, head, attributes⟩

/-! ### Other orders -/

private theorem blank_space : Blank [' '] := by
  decide

private theorem atSeam_spaced (ordered : List Spelling) :
    AtSeam (spacedText (ordered.flatMap (Spelling.spaced [' '])) ++ []) := by
  cases ordered with
  | nil => exact .nil
  | cons first later => exact .cons (by decide) _

/-- Attributes that could be told apart can be told apart behind spaces. -/
theorem readsBefore_ordered
    (reads : ∀ spelling ∈ ordered, ∃ gap rest, ReadsBefore rest (spelling.spaced gap)) :
    ReadsBefore [] (ordered.flatMap (Spelling.spaced [' '])) := by
  induction ordered with
  | nil => trivial
  | cons first later ih =>
      obtain ⟨⟨gap, rest, read⟩, others⟩ := List.forall_mem_cons.mp reads
      rw [List.flatMap_cons, readsBefore_append]
      -- what is in front of the name does not matter to how it is read
      have behind : ReadsBefore rest (first.spaced [' ']) := read
      exact ⟨@ReadsBefore.seam _ [] rest _ behind (atSeam_spaced later), ih others⟩

private theorem Line.Gives.reordered (gives : line.Gives content front written)
    (wellFormed : line.WellFormed) (permuted : ordered.Perm (written.map Prod.snd)) :
    (line.reordered content front ordered).WellFormed := by
  obtain ⟨-, gaps, reads, blanks, comment, ending⟩ := wellFormed
  have member : ∀ spelling ∈ ordered, ∃ gap, (gap, spelling) ∈ written := by
    intro spelling among
    obtain ⟨⟨gap, _⟩, inside, rfl⟩ := List.mem_map.mp (permuted.subset among)
    exact ⟨gap, inside⟩
  rw [gives.spaced] at gaps reads
  obtain ⟨frontRead, writtenRead⟩ := readsBefore_append.mp reads
  refine ⟨?_, ?_, ?_, blanks, comment, ending⟩
  · rw [Line.reordered, List.map_append, gives.front, Option.map_some, Option.getD_some,
      Statement.tokens, List.map_flatMap, List.flatMap_map]
    simp only [Spelling.token_spaced]
    rfl
  · refine List.forall_mem_append.mpr
      ⟨fun one inside => gaps one (List.mem_append_left _ inside), ?_⟩
    intro one inside
    obtain ⟨spelling, among, spaced⟩ := List.mem_flatMap.mp inside
    obtain ⟨gap, known⟩ := member spelling among
    rcases List.mem_cons.mp spaced with rfl | behind
    · exact blank_space
    · have stands : one ∈ written.flatMap (fun (gap, spelling) => spelling.spaced gap) :=
        List.mem_flatMap.mpr ⟨_, known, List.mem_cons_of_mem _ behind⟩
      exact gaps one (List.mem_append_right _ stands)
  · refine readsBefore_append.mpr
      ⟨@ReadsBefore.seam _ [] _ _ frontRead (atSeam_spaced ordered), readsBefore_ordered ?_⟩
    intro spelling among
    obtain ⟨gap, inside⟩ := member spelling among
    obtain ⟨before, after, rfl⟩ := List.mem_iff_append.mp inside
    rw [List.flatMap_append, List.flatMap_cons, readsBefore_append, readsBefore_append]
      at writtenRead
    exact ⟨gap, _, writtenRead.2.1⟩

private theorem Line.Gives.numbered (gives : line.Gives content front written)
    (permuted : ordered.Perm (written.map Prod.snd)) (before after : Document) (number : Nat) :
    (Document.numbered number (before ++ line.reordered content front ordered :: after)).map
        Prod.fst = (Document.numbered number (before ++ line :: after)).map Prod.fst ∧
      List.Forall₂ Statement.Alike
        ((Document.numbered number
          (before ++ line.reordered content front ordered :: after)).map Prod.snd)
        ((Document.numbered number (before ++ line :: after)).map Prod.snd) := by
  have alike : Statement.Alike { content with attributes := ordered.map Spelling.attr }
      content := by
    refine ⟨rfl, rfl, rfl, rfl, ?_⟩
    rw [← gives.attributes]
    have attributes := permuted.map Spelling.attr
    rw [List.map_map] at attributes
    exact attributes
  have same : ∀ doc : List (Nat × Statement), List.Forall₂ Statement.Alike (doc.map Prod.snd)
      (doc.map Prod.snd) := fun doc => List.forall₂_same.mpr (fun content _ => .refl content)
  simp only [Document.numbered_append, Document.numbered, gives.stated, Line.reordered, Line.feeds,
    Option.map_some, Option.toList_some, List.singleton_append, List.map_append, List.map_cons]
  exact ⟨trivial, List.rel_append (same _) (.cons alike (same _))⟩

private theorem Line.Gives.wellFormed (gives : line.Gives content front written)
    (permuted : ordered.Perm (written.map Prod.snd)) {before after : Document}
    (wellFormed : Document.WellFormed (before ++ line :: after)) :
    Document.WellFormed (before ++ line.reordered content front ordered :: after) := by
  obtain ⟨lines, ended⟩ := wellFormed
  constructor
  · simp only [List.forall_mem_append, List.forall_mem_cons] at lines ⊢
    exact ⟨lines.1, gives.reordered lines.2.1 permuted, lines.2.2⟩
  · simp only [List.pairwise_append, List.pairwise_cons, List.forall_mem_cons] at ended ⊢
    exact ended

end

/-! ### The trace -/

section

variable {text : List Char} {trace : Trace}

private theorem parse_reordered {line : Line} {content : Statement} {front : List Spaced}
    {written : List (List Char × Spelling)} {ordered : List Spelling} {before after : Document}
    (wellFormed : Document.WellFormed (before ++ line :: after))
    (parsed : parse (Document.text (before ++ line :: after)) = .ok trace)
    (gives : line.Gives content front written) (permuted : ordered.Perm (written.map Prod.snd)) :
    parse (Document.text (before ++ line.reordered content front ordered :: after)) =
      .ok trace := by
  obtain ⟨lines, alike⟩ := gives.numbered permuted before after 1
  obtain ⟨oldLines, found, again, declared, unlined, newLines⟩ :=
    parse_text_alike wellFormed (gives.wellFormed permuted wellFormed) alike parsed
  have events := events_ext unlined (newLines.trans (lines.trans oldLines.symm))
  rw [again]
  cases found
  exact congrArg Except.ok (congrArg₂ Trace.mk events declared)

private theorem declares_of_parse (parsed : parse text = .ok trace) :
    ∃ placed, statements text = .ok placed ∧
      List.Forall₂ (fun event one => event.declares = true →
        Declares one.statement.attributes event.record) trace.events placed := by
  obtain ⟨placed, final, read, added, rfl⟩ := parse_eq_ok_iff.mp parsed
  refine ⟨placed, read, ?_⟩
  refine addAll_run (fun done progress => List.Forall₂ (fun event one => event.declares = true →
    Declares one.statement.attributes event.record) progress.events done) ?_ [] .nil added
  intro done one progress next held stepped
  obtain ⟨time, phase, record, declares, -, -, recorded, rfl⟩ := Progress.add_eq_ok_iff.mp stepped
  refine List.rel_append held (.cons ?_ .nil)
  rintro rfl
  rcases recordOf_eq_ok_iff.mp recorded with ⟨repeats, -⟩ | ⟨-, -, -, declared⟩
  · cases repeats
  · exact declares_of_declare declared

/-- A trace does not depend on the order of the attributes of a declaration. -/
theorem attributeOrder_irrelevant (parsed : parse text = .ok trace) :
    (∃ placed, statements text = .ok placed ∧
      List.Forall₂ (fun event one => event.declares = true →
        Declares one.statement.attributes event.record) trace.events placed) ∧
      (∃ doc, Document.WellFormed doc ∧ Document.text doc = text) ∧
      ∀ before line after content, Document.WellFormed (before ++ line :: after) →
        Document.text (before ++ line :: after) = text → line.content = some content →
          (∃ front written, line.Gives content front written) ∧
          ∀ front written ordered, line.Gives content front written →
            ordered.Perm (written.map Prod.snd) →
              parse (Document.text (before ++ line.reordered content front ordered :: after)) =
                .ok trace := by
  obtain ⟨placed, -, read, -⟩ := parse_eq_ok_iff.mp parsed
  refine ⟨declares_of_parse parsed, exists_document read, ?_⟩
  rintro before line after content wellFormed rfl stated
  have lineFormed := wellFormed.lines line List.mem_append_cons_self
  exact ⟨lineFormed.exists_gives stated, fun _ _ _ gives permuted =>
    parse_reordered wellFormed parsed gives permuted⟩

end

/-! A write of two beats whose byte count stands behind the shape of its burst and in front of
its command. -/

def writeFront : List Spaced :=
  [⟨[], .time "0".toList⟩, ⟨[' '], .direction .forward⟩, ⟨[' '], .phase "BeginRequest".toList⟩,
    ⟨[' '], .label "w".toList⟩]

def writeSpellings : List (List Char × Spelling) :=
  [([' '], ⟨⟨"len".toList, some (.integer "1".toList)⟩, [' '], [' ']⟩),
    (['\t'], ⟨⟨"bytes".toList, some (.integer "5".toList)⟩, [], []⟩),
    ([' ', ' '], ⟨⟨"cmd".toList, some (.word "write".toList)⟩, [], []⟩)]

def writeContent : Statement :=
  ⟨"0".toList, .forward, "BeginRequest".toList, "w".toList,
    writeSpellings.map (fun (_, spelling) => spelling.attr)⟩

def writeLine : Line :=
  ⟨some writeContent,
    writeFront ++ writeSpellings.flatMap (fun (gap, spelling) => spelling.spaced gap), [], none,
    none⟩

theorem attributeOrder_irrelevant_of_write :
    ∃ trace, parse "@0 fw BeginRequest w len = 1\tbytes=5  cmd=write".toList = .ok trace ∧
      trace.declared.map (fun entry => (entry.record.bytes, entry.record.snoop)) =
        [(5, .writeNoSnoop)] ∧
      parse "@0 fw BeginRequest w cmd=write bytes=5 len = 1".toList = .ok trace := by
  have accepted : (parse "@0 fw BeginRequest w len = 1\tbytes=5  cmd=write".toList).toOption.map
      (fun trace => trace.declared.map (fun entry => (entry.record.bytes, entry.record.snoop))) =
        some [(5, .writeNoSnoop)] := by
    decide +kernel
  obtain ⟨trace, parsed, recorded⟩ := exists_parse_of_toOption accepted
  have gives : writeLine.Gives writeContent writeFront writeSpellings := ⟨rfl, rfl, rfl, rfl⟩
  obtain ⟨-, -, reordered⟩ := attributeOrder_irrelevant parsed
  obtain ⟨-, same⟩ := reordered [] writeLine [] writeContent (by decide) (by decide) rfl
  exact ⟨trace, parsed, recorded,
    same writeFront writeSpellings (writeSpellings.map Prod.snd).reverse gives
      (List.reverse_perm _)⟩

end Handshake.Trace
