import Handshake.Proofs.Trace.Token
set_option autoImplicit false

/-! Tokens with blanks between them. The tokens of a statement, each with blanks in front of it, are
read as that statement when they can be told apart and nothing but the end of a line follows; and
what is read of a statement stands in the text as such tokens. -/

namespace Handshake.Trace

structure Spaced where
  gap : List Char
  token : Token

def Spaced.text (spaced : Spaced) : List Char := spaced.gap ++ spaced.token.text

def spacedText (spaced : List Spaced) : List Char := spaced.flatMap Spaced.text

/-- Each token is read as it stands, when the given text follows the last. -/
def ReadsBefore (rest : List Char) : List Spaced → Prop
  | [] => True
  | first :: later => first.token.ReadBefore (spacedText later ++ rest) ∧ ReadsBefore rest later

instance decidableReadsBefore (rest : List Char) :
    (spaced : List Spaced) → Decidable (ReadsBefore rest spaced)
  | [] => inferInstanceAs (Decidable True)
  | _ :: later =>
      have := decidableReadsBefore rest later
      inferInstanceAs (Decidable (_ ∧ _))

def Blank (gap : List Char) : Prop := ∀ char ∈ gap, isBlank char = true

instance (gap : List Char) : Decidable (Blank gap) :=
  decidable_of_iff (gap.all isBlank = true) List.all_eq_true

def Unbroken (text : List Char) : Prop := ∀ char ∈ text, isBreak char = false

instance (text : List Char) : Decidable (Unbroken text) :=
  decidable_of_iff (text.all (fun char => !isBreak char) = true) all_not_eq_true_iff

def Attribute.tokens (attr : Attribute) : List Token :=
  .name attr.name :: (attr.value.map (fun value => [.sign, .value value])).getD []

def Statement.head (content : Statement) : List Token :=
  [.time content.time, .direction content.direction, .phase content.phase, .label content.label]

def Statement.tokens (content : Statement) : List Token :=
  content.head ++ content.attributes.flatMap Attribute.tokens

/-! ### Gaps -/

section

variable {gap text rest : List Char}

theorem dropGap_append (blank : Blank gap) (rest : List Char) :
    dropGap (gap ++ rest) = dropGap rest := by
  induction gap with
  | nil => rfl
  | cons char others ih =>
      obtain ⟨first, more⟩ := List.forall_mem_cons.mp blank
      rw [List.cons_append, dropGap, dropGapFrom, if_neg Bool.false_ne_true, if_pos first]
      exact ih more

theorem dropGap_dropGap (text : List Char) : dropGap (dropGap text) = dropGap text :=
  dropGap_dropGapFrom false text

theorem dropGap_of_break {char : Char} (broken : isBreak char = true) (rest : List Char) :
    dropGap (char :: rest) = char :: rest := by
  rcases isBreak_iff.mp broken with rfl | rfl <;> rfl

private theorem dropGap_of_not_mem {char : Char} (solid : char ∉ seams) (rest : List Char) :
    dropGap (char :: rest) = char :: rest := by
  refine dropGap_cons (Bool.eq_false_iff.mpr (fun blank => solid ?_)) ?_ rest
  · rcases isBlank_iff.mp blank with rfl | rfl <;> decide
  · rintro rfl
    exact solid (by decide)

private theorem isBreak_of_not_mem {char : Char} (solid : char ∉ seams) : isBreak char = false := by
  refine Bool.eq_false_iff.mpr (fun broken => solid ?_)
  rcases isBreak_iff.mp broken with rfl | rfl <;> decide

theorem dropGapFrom_true_append (inLine : Unbroken text)
    (ended : ∀ next ∈ rest.head?, isBreak next = true) :
    dropGapFrom true (text ++ rest) = rest := by
  induction text with
  | nil =>
      cases rest with
      | nil => rfl
      | cons next others =>
          rw [List.nil_append, dropGapFrom, if_pos rfl, if_pos (ended next rfl)]
  | cons char others ih =>
      obtain ⟨first, more⟩ := List.forall_mem_cons.mp inLine
      rw [List.cons_append, dropGapFrom, if_pos rfl, first, if_neg Bool.false_ne_true]
      exact ih more

/-- A gap in front of a line break or the end of a text is blanks and perhaps a comment. -/
theorem exists_blanks_comment (ended : ∀ next ∈ (dropGap text).head?, isBreak next = true) :
    ∃ blanks comment, text = blanks ++ ((Option.map ('#' :: ·) comment).getD [] ++ dropGap text) ∧
      Blank blanks ∧ ∀ inside ∈ comment, Unbroken inside := by
  have comment : ∀ text : List Char,
      ∃ inside, text = inside ++ dropGapFrom true text ∧ Unbroken inside := by
    intro text
    induction text with
    | nil => exact ⟨[], rfl, List.forall_mem_nil _⟩
    | cons char others ih =>
        rw [dropGapFrom, if_pos rfl]
        split
        · exact ⟨[], rfl, List.forall_mem_nil _⟩
        · rename_i inLine
          obtain ⟨inside, same, all⟩ := ih
          exact ⟨char :: inside, congrArg (char :: ·) same,
            List.forall_mem_cons.mpr ⟨Bool.eq_false_iff.mpr inLine, all⟩⟩
  induction text with
  | nil => exact ⟨[], none, rfl, List.forall_mem_nil _, by rintro _ ⟨⟩⟩
  | cons char others ih =>
      rw [dropGap, dropGapFrom, if_neg Bool.false_ne_true] at ended ⊢
      split at ended
      · rename_i blank
        rw [if_pos blank]
        obtain ⟨blanks, comment, same, all, inLine⟩ := ih ended
        exact ⟨char :: blanks, comment, congrArg (char :: ·) same,
          List.forall_mem_cons.mpr ⟨blank, all⟩, inLine⟩
      · rename_i noBlank
        rw [if_neg noBlank]
        split at ended
        · rename_i mark
          obtain ⟨inside, same, all⟩ := comment others
          refine ⟨[], some inside, ?_, List.forall_mem_nil _, ?_⟩
          · rw [if_pos mark, mark]
            exact congrArg ('#' :: ·) same
          · rintro _ ⟨⟩
            exact all
        · rename_i noMark
          rw [if_neg noMark]
          exact ⟨[], none, rfl, List.forall_mem_nil _, by rintro _ ⟨⟩⟩

end

/-! ### Reading tokens -/

section

variable {token : Token} {spaced : List Spaced} {front back gap text rest : List Char}

private theorem scan_start {literal : List Char}
    (found : Integer.scan text = some (literal, rest)) :
    ∃ first others, literal = first :: others ∧ first.isDigit = true := by
  unfold Integer.scan at found
  rw [Option.or_eq_some_iff, Option.or_eq_some_iff] at found
  rcases found with hexadecimal | ⟨-, binary | ⟨-, decimal⟩⟩
  · obtain ⟨-, ⟨mark, digits, rfl, -⟩, -⟩ := scanMarked_eq_some_iff.mp hexadecimal
    exact ⟨_, _, rfl, rfl⟩
  · obtain ⟨-, ⟨mark, digits, rfl, -⟩, -⟩ := scanMarked_eq_some_iff.mp binary
    exact ⟨_, _, rfl, rfl⟩
  · obtain ⟨-, ⟨first, digits, rfl, digit, -⟩, -⟩ := scanDecimal_eq_some_iff.mp decimal
    exact ⟨_, _, rfl, digit⟩

private theorem not_mem_seams {isPart : Char → Bool} (apart : Apart isPart)
    {char : Char} (part : isPart char = true) : char ∉ seams :=
  fun seam => Bool.false_ne_true ((apart char seam).symm.trans part)

private theorem Token.ReadBefore.start (reads : token.ReadBefore rest) :
    ∃ first others, token.text = first :: others ∧ first ∉ seams := by
  have word : ∀ {isPart word}, Apart isPart → Spells isPart word →
      ∃ first others, word = first :: others ∧ first ∉ seams := by
    intro isPart word apart spells
    obtain ⟨first, others, rfl⟩ := List.exists_cons_of_ne_nil spells.nonempty
    exact ⟨first, others, rfl, not_mem_seams apart (spells.all first List.mem_cons_self)⟩
  cases token with
  | time literal => exact ⟨_, _, rfl, by decide⟩
  | direction towards => cases towards <;> exact ⟨_, _, rfl, by decide⟩
  | phase name => exact word (by decide) (word?_eq_some_iff.mp reads).2.1
  | label name => exact word (by decide) (word?_eq_some_iff.mp reads).2.1
  | name name => exact word (by decide) (name?_eq_some_iff.mp reads).2.1.toSpells
  | sign => exact ⟨_, _, rfl, by decide⟩
  | value given =>
      rcases value?_eq_some_iff.mp reads with ⟨literal, rfl, scanned⟩ | ⟨name, rfl, -, named⟩
      · obtain ⟨first, others, same, digit⟩ := scan_start scanned
        exact ⟨first, others, same, not_mem_seams (by decide) digit⟩
      · exact word (by decide) (name?_eq_some_iff.mp named).2.1.toSpells

private theorem Token.ReadBefore.dropGap_text (reads : token.ReadBefore rest) (blank : Blank gap) :
    dropGap ((Spaced.mk gap token).text ++ rest) = token.text ++ rest := by
  obtain ⟨first, others, same, solid⟩ := reads.start
  rw [Spaced.text, List.append_assoc, dropGap_append blank, same]
  exact dropGap_of_not_mem solid _

private theorem Token.ReadBefore.exists_gap (reads : token.ReadBefore rest)
    (same : dropGap text = token.text ++ rest) :
    ∃ gap, Blank gap ∧ text = (Spaced.mk gap token).text ++ rest := by
  obtain ⟨first, others, start, solid⟩ := reads.start
  rw [start] at same
  obtain ⟨gap, rfl, blank⟩ := blanks_of_dropGap same (isBreak_of_not_mem solid)
  refine ⟨gap, blank, ?_⟩
  rw [Spaced.text, List.append_assoc, start]
  rfl

theorem spacedText_cons (first : Spaced) (later : List Spaced) (rest : List Char) :
    spacedText (first :: later) ++ rest = first.text ++ (spacedText later ++ rest) := by
  rw [spacedText, List.flatMap_cons, List.append_assoc]
  rfl

private theorem spacedText_append (spaced more : List Spaced) (rest : List Char) :
    spacedText (spaced ++ more) ++ rest = spacedText spaced ++ (spacedText more ++ rest) := by
  rw [spacedText, List.flatMap_append, List.append_assoc]
  rfl

/-- A seam may be put anywhere behind tokens. -/
theorem ReadsBefore.seam (reads : ReadsBefore (front ++ back) spaced) (seam : AtSeam rest) :
    ReadsBefore (front ++ rest) spaced := by
  induction spaced with
  | nil => trivial
  | cons first later ih =>
      obtain ⟨read, others⟩ := reads
      rw [← List.append_assoc] at read
      refine ⟨?_, ih others⟩
      rw [← List.append_assoc]
      exact read.seam seam

theorem readsBefore_append {more : List Spaced} :
    ReadsBefore rest (spaced ++ more) ↔
      ReadsBefore (spacedText more ++ rest) spaced ∧ ReadsBefore rest more := by
  induction spaced with
  | nil => exact ⟨fun reads => ⟨trivial, reads⟩, And.right⟩
  | cons first later ih =>
      rw [List.cons_append, ReadsBefore, ReadsBefore, ih, spacedText_append, and_assoc]

end

/-! ### Reading attributes -/

section

variable {text behind afterSign rest : List Char} {name : List Char} {value : Value}

private theorem attribute?_of_bare (named : name? text = some (name, behind))
    (noSign : ∀ next ∈ (dropGap behind).head?, next ≠ '=') :
    ∃ layout, attribute? text = .ok (some (⟨name, none⟩, layout, dropGap behind)) := by
  simp only [attribute?, named]
  split
  · rename_i sign
    exact absurd rfl (noSign '=' (by rw [sign]; rfl))
  · exact ⟨_, rfl⟩

private theorem attribute?_of_value (named : name? text = some (name, behind))
    (sign : dropGap behind = '=' :: afterSign)
    (valued : value? (dropGap afterSign) = some (value, rest)) :
    ∃ layout, attribute? text = .ok (some (⟨name, some value⟩, layout, rest)) := by
  simp only [attribute?, named, sign, valued]
  exact ⟨_, rfl⟩

private theorem attribute?_cases {content : Attribute} {layout : AttributeLayout}
    (found : attribute? text = .ok (some (content, layout, rest))) :
    ∃ behind, name? text = some (content.name, behind) ∧
      ((content.value = none ∧ rest = dropGap behind) ∨
        ∃ value afterSign, content.value = some value ∧ dropGap behind = '=' :: afterSign ∧
          value? (dropGap afterSign) = some (value, rest)) := by
  unfold attribute? at found
  split at found
  · cases found
  · rename_i name behind named
    split at found
    · rename_i afterSign sign
      split at found
      · cases found
      · rename_i value remaining valued
        cases found
        exact ⟨behind, named, .inr ⟨value, afterSign, rfl, sign, valued⟩⟩
    · cases found
      exact ⟨behind, named, .inl ⟨rfl, rfl⟩⟩

theorem attribute?_eq_none (ended : ∀ next ∈ text.head?, isNameStart next = false) :
    attribute? text = .ok none := by
  have unnamed : name? text = none := by
    cases text with
    | nil => rfl
    | cons first others =>
        rw [name?, ended first rfl]
        rfl
  simp only [attribute?, unnamed]

end

section

variable {spaced : List Spaced} {text rest : List Char}

def AtLineEnd (rest : List Char) : Prop := ∀ next ∈ (dropGap rest).head?, isBreak next = true

private theorem AtLineEnd.stops (ended : AtLineEnd rest) {isPart : Char → Bool}
    (noFeed : isPart '\n' = false) (noReturn : isPart '\r' = false) :
    ∀ next ∈ (dropGap rest).head?, isPart next = false := by
  intro next first
  rcases isBreak_iff.mp (ended next first) with rfl | rfl
  · exact noFeed
  · exact noReturn

private theorem noSign_of_attributes {given : List Attribute}
    (tokens : spaced.map Spaced.token = given.flatMap Attribute.tokens)
    (gaps : ∀ one ∈ spaced, Blank one.gap) (reads : ReadsBefore rest spaced)
    (ended : AtLineEnd rest) :
    ∀ next ∈ (dropGap (spacedText spaced ++ rest)).head?, next ≠ '=' := by
  cases spaced with
  | nil =>
      intro next first
      exact (ne_of_outside (ended next first) (by decide))
  | cons front later =>
      cases given with
      | nil => cases tokens
      | cons attr more =>
          obtain ⟨gap, token⟩ := front
          obtain ⟨same, -⟩ := List.cons.inj tokens
          obtain rfl : token = .name attr.name := same
          rw [spacedText_cons, reads.1.dropGap_text (gaps _ List.mem_cons_self)]
          obtain ⟨-, named, -⟩ := name?_eq_some_iff.mp reads.1
          intro next first
          exact ne_of_outside (named.start_append first) (by decide)

private theorem attributes_of_spaced {given : List Attribute}
    (tokens : spaced.map Spaced.token = given.flatMap Attribute.tokens)
    (gaps : ∀ one ∈ spaced, Blank one.gap) (reads : ReadsBefore rest spaced)
    (ended : AtLineEnd rest) (same : dropGap text = dropGap (spacedText spaced ++ rest)) :
    ∃ found last, attributes text = .ok (found, last) ∧ found.map Prod.fst = given ∧
      dropGap last = dropGap rest := by
  induction given generalizing spaced text with
  | nil =>
      obtain rfl := List.map_eq_nil_iff.mp tokens
      refine ⟨[], text, attributes_of_none ?_, rfl, same⟩
      rw [same]
      exact attribute?_eq_none (ended.stops rfl rfl)
  | cons attr more ih =>
      rcases attr with ⟨name, _ | value⟩
      · -- a name, and no equals sign behind it
        obtain ⟨⟨gap, _⟩, later, rfl, rfl, others⟩ := List.map_eq_cons_iff.mp tokens
        obtain ⟨blank, gaps⟩ := List.forall_mem_cons.mp gaps
        rw [spacedText_cons, reads.1.dropGap_text blank] at same
        obtain ⟨layout, read⟩ :=
          attribute?_of_bare reads.1 (noSign_of_attributes others gaps reads.2 ended)
        obtain ⟨found, last, attributed, contents, remains⟩ :=
          ih others gaps reads.2 (dropGap_dropGap _)
        refine ⟨(⟨name, none⟩, layout) :: found, last, ?_, congrArg (_ :: ·) contents, remains⟩
        rw [attributes_of_some (same ▸ read), attributed]
        rfl
      · -- a name, an equals sign and a value
        obtain ⟨⟨gap, _⟩, _, rfl, rfl, fromSign⟩ := List.map_eq_cons_iff.mp tokens
        obtain ⟨⟨inner, _⟩, _, rfl, rfl, fromValue⟩ := List.map_eq_cons_iff.mp fromSign
        obtain ⟨⟨last, _⟩, later, rfl, rfl, others⟩ := List.map_eq_cons_iff.mp fromValue
        obtain ⟨blank, gaps⟩ := List.forall_mem_cons.mp gaps
        obtain ⟨innerBlank, gaps⟩ := List.forall_mem_cons.mp gaps
        obtain ⟨lastBlank, gaps⟩ := List.forall_mem_cons.mp gaps
        obtain ⟨named, signed, valued, reads⟩ := reads
        rw [spacedText_cons, named.dropGap_text blank] at same
        have sign := signed.dropGap_text innerBlank
        rw [← spacedText_cons] at sign
        have behind := valued.dropGap_text lastBlank
        rw [← spacedText_cons] at behind
        obtain ⟨layout, read⟩ :=
          attribute?_of_value named sign ((congrArg value? behind).trans valued)
        obtain ⟨found, last, attributed, contents, remains⟩ := ih others gaps reads rfl
        refine ⟨(⟨name, some value⟩, layout) :: found, last, ?_, congrArg (_ :: ·) contents,
          remains⟩
        rw [attributes_of_some (same ▸ read), attributed]
        rfl

private theorem exists_spaced_of_attributes {found : List (Attribute × AttributeLayout)}
    {last : List Char} (read : attributes text = .ok (found, last)) {whole : List Char}
    (same : dropGap whole = dropGap text) :
    ∃ spaced rest, whole = spacedText spaced ++ rest ∧
      spaced.map Spaced.token = (found.map Prod.fst).flatMap Attribute.tokens ∧
      (∀ one ∈ spaced, Blank one.gap) ∧ ReadsBefore rest spaced ∧ dropGap rest = dropGap last := by
  fun_induction attributes text generalizing found last whole with
  | case1 => cases read
  | case2 =>
      cases read
      exact ⟨[], whole, rfl, rfl, List.forall_mem_nil _, trivial, same⟩
  | case3 text content layout remaining attributed ih =>
      obtain ⟨⟨later, last⟩, others, same⟩ := map_eq_ok_iff.mp read
      cases same
      obtain ⟨behind, named, ⟨bare, rfl⟩ | ⟨value, afterSign, valued, sign, valueRead⟩⟩ :=
        attribute?_cases attributed
      · obtain ⟨spaced, rest, rfl, tokens, gaps, reads, remains⟩ :=
          ih others (dropGap_dropGap behind).symm
        obtain ⟨parts, -⟩ := name?_eq_some_iff.mp named
        rw [parts] at same named
        have first : Token.ReadBefore (spacedText spaced ++ rest) (.name content.name) := named
        obtain ⟨gap, blank, rfl⟩ := first.exists_gap same
        refine ⟨⟨gap, .name content.name⟩ :: spaced, rest, (spacedText_cons _ _ _).symm, ?_,
          List.forall_mem_cons.mpr ⟨blank, gaps⟩, ⟨first, reads⟩, remains⟩
        rw [List.map_cons, List.map_cons, List.flatMap_cons, tokens, Attribute.tokens, bare]
        rfl
      · obtain ⟨spaced, rest, rfl, tokens, gaps, reads, remains⟩ := ih others rfl
        have third : Token.ReadBefore (spacedText spaced ++ rest) (.value value) := by
          rw [value?_append_text valueRead] at valueRead
          exact valueRead
        obtain ⟨lastGap, lastBlank, rfl⟩ := third.exists_gap (value?_append_text valueRead)
        rw [← spacedText_cons] at sign
        have second : Token.ReadBefore (spacedText (⟨lastGap, .value value⟩ :: spaced) ++ rest)
            .sign := trivial
        obtain ⟨innerGap, innerBlank, rfl⟩ := second.exists_gap sign
        rw [← spacedText_cons] at named
        obtain ⟨parts, -⟩ := name?_eq_some_iff.mp named
        rw [parts] at same named
        have first : Token.ReadBefore
            (spacedText (⟨innerGap, .sign⟩ :: ⟨lastGap, .value value⟩ :: spaced) ++ rest)
            (.name content.name) := named
        obtain ⟨gap, blank, rfl⟩ := first.exists_gap same
        refine ⟨⟨gap, .name content.name⟩ :: ⟨innerGap, .sign⟩ :: ⟨lastGap, .value value⟩ :: spaced,
          rest, (spacedText_cons _ _ _).symm, ?_, ?_, ⟨first, second, third, reads⟩, remains⟩
        · rw [List.map_cons, List.map_cons, List.map_cons, List.map_cons, List.flatMap_cons, tokens,
            Attribute.tokens, valued]
          rfl
        · exact List.forall_mem_cons.mpr ⟨blank, List.forall_mem_cons.mpr ⟨innerBlank,
            List.forall_mem_cons.mpr ⟨lastBlank, gaps⟩⟩⟩

end

/-! ### Reading statements -/

section

variable {spaced : List Spaced} {text rest : List Char} {content : Statement}

private theorem direction?_name (towards : Direction) (rest : List Char) :
    direction? (towards.name.toList ++ rest) = some (towards, rest) := by
  cases towards <;> rfl

theorem statement_of_parts (whole : List Char) {afterSign time behindTime phase behindDirection
      behindPhase label behindLabel last : List Char} {direction : Direction}
    {found : List (Attribute × AttributeLayout)}
    (timed : Integer.scan afterSign = some (time, behindTime))
    (directed : direction? (dropGap behindTime) = some (direction, behindDirection))
    (phased : word? Char.isAlpha (dropGap behindDirection) = some (phase, behindPhase))
    (labelled : word? isLabelPart (dropGap behindPhase) = some (label, behindLabel))
    (attributed : attributes behindLabel = .ok (found, last)) :
    ∃ layout, statement whole afterSign =
      .ok (⟨time, direction, phase, label, found.map Prod.fst⟩, layout, last) :=
  ⟨_, statement_eq_ok_iff.mpr
    ⟨_, _, _, _, _, _, _, _, _, _, timed, directed, phased, labelled, attributed, rfl⟩⟩

theorem statement_of_spaced (tokens : spaced.map Spaced.token = content.tokens)
    (gaps : ∀ one ∈ spaced, Blank one.gap) (reads : ReadsBefore rest spaced)
    (ended : AtLineEnd rest) :
    ∃ afterSign layout last, dropGap (spacedText spaced ++ rest) = '@' :: afterSign ∧
      statement ('@' :: afterSign) afterSign = .ok (content, layout, last) ∧
        dropGap last = dropGap rest := by
  obtain ⟨⟨_, _⟩, _, rfl, rfl, fromDirection⟩ := List.map_eq_cons_iff.mp tokens
  obtain ⟨⟨_, _⟩, _, rfl, rfl, fromPhase⟩ := List.map_eq_cons_iff.mp fromDirection
  obtain ⟨⟨_, _⟩, _, rfl, rfl, fromLabel⟩ := List.map_eq_cons_iff.mp fromPhase
  obtain ⟨⟨_, _⟩, later, rfl, rfl, fromAttributes⟩ := List.map_eq_cons_iff.mp fromLabel
  obtain ⟨timeBlank, gaps⟩ := List.forall_mem_cons.mp gaps
  obtain ⟨directionBlank, gaps⟩ := List.forall_mem_cons.mp gaps
  obtain ⟨phaseBlank, gaps⟩ := List.forall_mem_cons.mp gaps
  obtain ⟨labelBlank, gaps⟩ := List.forall_mem_cons.mp gaps
  obtain ⟨timed, directed, phased, labelled, attributed⟩ := reads
  obtain ⟨found, last, attributesRead, contents, remains⟩ :=
    attributes_of_spaced fromAttributes gaps attributed ended rfl
  have start := timed.dropGap_text timeBlank
  have directionStart := directed.dropGap_text directionBlank
  have phaseStart := phased.dropGap_text phaseBlank
  have labelStart := labelled.dropGap_text labelBlank
  rw [← spacedText_cons] at start directionStart phaseStart labelStart
  obtain ⟨layout, read⟩ := statement_of_parts ('@' :: (content.time ++ _)) timed
    ((congrArg direction? directionStart).trans (direction?_name content.direction _))
    ((congrArg (word? Char.isAlpha) phaseStart).trans phased)
    ((congrArg (word? isLabelPart) labelStart).trans labelled) attributesRead
  rw [contents] at read
  exact ⟨_, layout, last, start, read, remains⟩

/-- What was read of a statement stands in a text as tokens with blanks between them. -/
theorem exists_spaced_of_statement {afterSign last : List Char} {layout : Layout}
    (read : statement text afterSign = .ok (content, layout, last)) {whole : List Char}
    (same : dropGap whole = '@' :: afterSign) :
    ∃ spaced rest, whole = spacedText spaced ++ rest ∧ spaced.map Spaced.token = content.tokens ∧
      (∀ one ∈ spaced, Blank one.gap) ∧ ReadsBefore rest spaced ∧ dropGap rest = dropGap last := by
  obtain ⟨time, behindTime, direction, behindDirection, phase, behindPhase, label, behindLabel,
    found, _, timed, directed, phased, labelled, attributed, answer⟩ := statement_eq_ok_iff.mp read
  cases answer
  obtain ⟨spaced, rest, rfl, tokens, gaps, attributesRead, remains⟩ :=
    exists_spaced_of_attributes attributed rfl
  -- each token stands behind blanks, since the token behind it is known to
  have labelParts := (word?_eq_some_iff.mp labelled).1
  rw [labelParts] at labelled
  have labelRead : Token.ReadBefore (spacedText spaced ++ rest) (.label label) := labelled
  obtain ⟨labelGap, labelBlank, rfl⟩ := labelRead.exists_gap labelParts
  rw [← spacedText_cons] at phased
  have phaseParts := (word?_eq_some_iff.mp phased).1
  rw [phaseParts] at phased
  have phaseRead : Token.ReadBefore (spacedText (⟨labelGap, .label label⟩ :: spaced) ++ rest)
      (.phase phase) := phased
  obtain ⟨phaseGap, phaseBlank, rfl⟩ := phaseRead.exists_gap phaseParts
  rw [← spacedText_cons] at directed
  have directionRead : Token.ReadBefore
      (spacedText (⟨phaseGap, .phase phase⟩ :: ⟨labelGap, .label label⟩ :: spaced) ++ rest)
      (.direction direction) := trivial
  obtain ⟨directionGap, directionBlank, rfl⟩ :=
    directionRead.exists_gap (direction?_append directed)
  rw [← spacedText_cons] at timed
  have timeParts := (scan_append timed).1
  rw [timeParts] at same timed
  have timeRead : Token.ReadBefore (spacedText (⟨directionGap, .direction direction⟩ ::
      ⟨phaseGap, .phase phase⟩ :: ⟨labelGap, .label label⟩ :: spaced) ++ rest) (.time time) := timed
  obtain ⟨timeGap, timeBlank, rfl⟩ := timeRead.exists_gap same
  refine ⟨⟨timeGap, .time time⟩ :: ⟨directionGap, .direction direction⟩ ::
    ⟨phaseGap, .phase phase⟩ :: ⟨labelGap, .label label⟩ :: spaced, rest,
      (spacedText_cons _ _ _).symm, ?_, ?_, ?_, remains⟩
  · rw [List.map_cons, List.map_cons, List.map_cons, List.map_cons, tokens]
    rfl
  · exact List.forall_mem_cons.mpr ⟨timeBlank, List.forall_mem_cons.mpr ⟨directionBlank,
      List.forall_mem_cons.mpr ⟨phaseBlank, List.forall_mem_cons.mpr ⟨labelBlank, gaps⟩⟩⟩⟩
  · exact ⟨timeRead, directionRead, phaseRead, labelRead, attributesRead⟩

end

end Handshake.Trace
