import Handshake.Proofs.Trace.Declaration
set_option autoImplicit false

/-! Statements as they are written, and that they are read back: each lexeme ends at the space or
the line feed behind it, whatever text follows. -/

namespace Handshake.Trace

/-! ### Writing -/

def Value.text : Value → List Char
  | .integer text | .word text => text

def Attribute.text (attr : Attribute) : List Char :=
  attr.name ++ (attr.value.map (fun value => '=' :: value.text)).getD []

def Statement.text (content : Statement) : List Char :=
  '@' :: (content.time ++ ' ' :: (content.direction.name.toList ++ ' ' :: (content.phase ++
    ' ' :: (content.label ++ (content.attributes.flatMap (fun attr => ' ' :: attr.text) ++
      ['\n'])))))

def Value.IsLexeme : Value → Prop
  | .integer text => Spells Char.isDigit text
  | .word text => IsName text

structure Attribute.IsLexeme (attr : Attribute) : Prop where
  name : IsName attr.name
  value : ∀ value ∈ attr.value, value.IsLexeme

/-- The parts of a statement are lexemes, its integers in decimal. -/
structure Statement.IsPlain (content : Statement) : Prop where
  time : Spells Char.isDigit content.time
  phase : Spells Char.isAlpha content.phase
  label : Spells isLabelPart content.label
  attributes : ∀ attr ∈ content.attributes, attr.IsLexeme

theorem spells_toDigits (number : Nat) : Spells Char.isDigit (Nat.toDigits 10 number) where
  nonempty := Nat.toDigits_ne_nil
  all := fun _ member => Nat.isDigit_of_mem_toDigits (by decide) (by decide) member

theorem spells_name (phase : Phase) : Spells Char.isAlpha phase.name.toList := by
  cases phase <;> decide

theorem Setting.isLexeme_written (setting : Setting) : setting.written.IsLexeme := by
  have word : ∀ (name word : List Char), IsName name → IsName word →
      Attribute.IsLexeme ⟨name, some (.word word)⟩ := by
    rintro name word named spelled
    exact ⟨named, by rintro _ ⟨⟩; exact spelled⟩
  have integer : ∀ (name : List Char) (number : Nat), IsName name →
      Attribute.IsLexeme ⟨name, some (.integer (Nat.toDigits 10 number))⟩ := by
    rintro name number named
    exact ⟨named, by rintro _ ⟨⟩; exact spells_toDigits number⟩
  cases setting with
  | command keyword => cases keyword <;> exact word _ _ (by decide) (by decide)
  | burst keyword => cases keyword <;> exact word _ _ (by decide) (by decide)
  | domain keyword => cases keyword <;> exact word _ _ (by decide) (by decide)
  | snoop keyword => cases keyword <;> exact word _ _ (by decide) (by decide)
  | barrier keyword => cases keyword <;> exact word _ _ (by decide) (by decide)
  | snoopOnly => exact ⟨by decide, by rintro _ ⟨⟩⟩
  | axiId number => exact integer _ number (by decide)
  | address number => exact integer _ number (by decide)
  | length number => exact integer _ number (by decide)
  | size number => exact integer _ number (by decide)
  | bytes number => exact integer _ number (by decide)
  | cache number => exact integer _ number (by decide)

/-! ### Boundaries -/

def AtBoundary (rest : List Char) : Prop := ∀ next ∈ rest.head?, next = ' ' ∨ next = '\n'

private theorem AtBoundary.space (rest : List Char) : AtBoundary (' ' :: rest) := by
  rintro _ ⟨⟩
  exact .inl rfl

private theorem AtBoundary.lineFeed (rest : List Char) : AtBoundary ('\n' :: rest) := by
  rintro _ ⟨⟩
  exact .inr rfl

private theorem AtBoundary.stops {rest : List Char} (boundary : AtBoundary rest)
    {isPart : Char → Bool}
    (noSpace : isPart ' ' = false) (noFeed : isPart '\n' = false) :
    ∀ next ∈ rest.head?, isPart next = false := by
  intro next first
  rcases boundary next first with rfl | rfl
  · exact noSpace
  · exact noFeed

/-! ### Integers -/

section

variable {word rest : List Char}

private theorem scanMarked_eq_none {isMark isDigit : Char → Bool} {first : Char}
    (noMark : ∀ next ∈ rest.head?, isMark next = false) :
    Integer.scanMarked isMark isDigit (first :: rest) = none := by
  refine scanMarked_eq_none_iff.mpr (fun mark digit behind same marked => ?_)
  rw [noMark mark (by rw [(List.cons.inj same).2]; rfl)] at marked
  cases marked

private theorem scan_append_of_digits (digits : Spells Char.isDigit word)
    (boundary : AtBoundary rest) :
    Integer.scan (word ++ rest) = some (word, rest) := by
  cases word with
  | nil => exact absurd rfl digits.nonempty
  | cons first others =>
      obtain ⟨digit, all⟩ := List.forall_mem_cons.mp digits.all
      -- a mark would be the second character, which is a digit, or a boundary behind the first
      have unmarked : ∀ isMark : Char → Bool, (∀ char, isMark char = true → char.isDigit = false) →
          isMark ' ' = false → isMark '\n' = false →
            ∀ next ∈ (others ++ rest).head?, isMark next = false := by
        intro isMark apart noSpace noFeed next head
        cases others with
        | nil => exact boundary.stops noSpace noFeed next head
        | cons second more =>
            obtain rfl : second = next := Option.some.inj head
            refine Bool.eq_false_iff.mpr (fun marked => ?_)
            exact ne_of_outside (all second List.mem_cons_self) (apart second marked) rfl
      have decimal : Integer.scanDecimal (first :: (others ++ rest)) =
          some (first :: others, rest) :=
        scanDecimal_eq_some_iff.mpr ⟨rfl, ⟨first, others, rfl, digit, fun char member => by
          rw [isLiteralPart, all char member]
          rfl⟩, boundary.stops rfl rfl⟩
      rw [List.cons_append, Integer.scan, scanMarked_eq_none (unmarked _ ?_ rfl rfl),
        scanMarked_eq_none (unmarked _ ?_ rfl rfl), Option.none_or, Option.none_or, decimal]
      · intro char mark
        rw [Integer.isBinaryMark, Bool.or_eq_true, decide_eq_true_eq, decide_eq_true_eq] at mark
        rcases mark with rfl | rfl <;> rfl
      · intro char mark
        rw [Integer.isHexMark, Bool.or_eq_true, decide_eq_true_eq, decide_eq_true_eq] at mark
        rcases mark with rfl | rfl <;> rfl

private theorem value?_append {value : Value} (lexeme : value.IsLexeme)
    (boundary : AtBoundary rest) :
    value? (value.text ++ rest) = some (value, rest) := by
  cases value with
  | integer literal =>
      exact value?_eq_some_iff.mpr (.inl ⟨literal, rfl, scan_append_of_digits lexeme boundary⟩)
  | word word =>
      exact value?_of_name lexeme (name?_append_of_stops lexeme (boundary.stops rfl rfl))

end

/-! ### Gaps -/

theorem dropGap_cons {char : Char} (noBlank : isBlank char = false) (noMark : char ≠ '#')
    (rest : List Char) : dropGap (char :: rest) = char :: rest := by
  rw [dropGap, dropGapFrom, if_neg Bool.false_ne_true, noBlank, if_neg Bool.false_ne_true,
    if_neg noMark]

theorem dropGap_dropGapFrom (inComment : Bool) (text : List Char) :
    dropGap (dropGapFrom inComment text) = dropGapFrom inComment text := by
  induction text generalizing inComment with
  | nil => rfl
  | cons char rest ih =>
      unfold dropGapFrom
      split
      · split
        · rename_i broken
          rcases isBreak_iff.mp broken with rfl | rfl <;> rfl
        · exact ih true
      · split
        · exact ih false
        · rename_i noBlank
          split
          · exact ih true
          · rename_i noMark
            exact dropGap_cons (Bool.eq_false_iff.mpr noBlank) noMark rest

private theorem dropGap_append_of_spells {isPart : Char → Bool} {word : List Char}
    (spells : Spells isPart word) (noSpace : isPart ' ' = false) (noTab : isPart '\t' = false)
    (noMark : isPart '#' = false) (rest : List Char) : dropGap (word ++ rest) = word ++ rest := by
  obtain ⟨first, others, rfl⟩ := List.exists_cons_of_ne_nil spells.nonempty
  have part := spells.all first List.mem_cons_self
  refine dropGap_cons (Bool.eq_false_iff.mpr (fun blank => ?_)) (ne_of_outside part noMark) _
  exact (isBlank_iff.mp blank).elim (ne_of_outside part noSpace) (ne_of_outside part noTab)

/-! ### Attributes -/

private theorem Attribute.IsLexeme.dropGap_text {attr : Attribute} (lexeme : attr.IsLexeme)
    (rest : List Char) : dropGap (attr.text ++ rest) = attr.text ++ rest := by
  rw [Attribute.text, List.append_assoc]
  exact dropGap_append_of_spells lexeme.name.toSpells rfl rfl rfl _

private theorem attribute?_text {attr : Attribute} (lexeme : attr.IsLexeme) {rest : List Char}
    (boundary : AtBoundary rest) (noSign : ∀ next ∈ (dropGap rest).head?, next ≠ '=') :
    ∃ layout last, attribute? (attr.text ++ rest) = .ok (some (attr, layout, last)) ∧
      dropGap last = dropGap rest := by
  obtain ⟨name, valued⟩ := lexeme
  rcases attr with ⟨word, _ | value⟩
  · have named : name? (word ++ rest) = some (word, rest) :=
      name?_append_of_stops name (boundary.stops rfl rfl)
    simp only [Attribute.text, Option.map_none, Option.getD_none, List.append_nil, attribute?,
      named]
    split
    · rename_i sign
      exact absurd rfl (noSign '=' (by rw [sign]; rfl))
    · -- the gap is gone, since an equals sign was looked for behind it
      exact ⟨_, _, rfl, dropGap_dropGapFrom false rest⟩
  · have named : name? (word ++ '=' :: (value.text ++ rest)) =
        some (word, '=' :: (value.text ++ rest)) := by
      refine name?_append_of_stops name ?_
      rintro _ ⟨⟩
      rfl
    have lexeme := valued value rfl
    have solid : dropGap (value.text ++ rest) = value.text ++ rest := by
      cases value with
      | integer literal => exact dropGap_append_of_spells lexeme rfl rfl rfl rest
      | word word => exact dropGap_append_of_spells lexeme.toSpells rfl rfl rfl rest
    have sign : dropGap ('=' :: (value.text ++ rest)) = '=' :: (value.text ++ rest) :=
      dropGap_cons rfl (by decide) _
    simp only [Attribute.text, Option.map_some, Option.getD_some, List.append_assoc,
      List.cons_append, attribute?, named, sign, solid, value?_append lexeme boundary]
    exact ⟨_, _, rfl, rfl⟩

theorem attributes_of_none {text : List Char} (absent : attribute? (dropGap text) = .ok none) :
    attributes text = .ok ([], text) := by
  rw [attributes]
  split
  · rename_i failed
    cases absent.symm.trans failed
  · rfl
  · rename_i found
    cases absent.symm.trans found

theorem attributes_of_some {text rest : List Char} {content : Attribute} {layout : AttributeLayout}
    (found : attribute? (dropGap text) = .ok (some (content, layout, rest))) :
    attributes text =
      (attributes rest).map (fun (later, last) => ((content, layout) :: later, last)) := by
  rw [attributes]
  split
  · rename_i failed
    cases found.symm.trans failed
  · rename_i absent
    cases found.symm.trans absent
  · rename_i read
    cases found.symm.trans read
    rfl

def attributesText (given : List Attribute) (rest : List Char) : List Char :=
  given.flatMap (fun attr => ' ' :: attr.text) ++ '\n' :: rest

private theorem atBoundary_attributesText (given : List Attribute) (rest : List Char) :
    AtBoundary (attributesText given rest) := by
  cases given with
  | nil => exact .lineFeed rest
  | cons attr more => exact .space _

private theorem attributes_text {given : List Attribute} (lexemes : ∀ attr ∈ given, attr.IsLexeme)
    (text : List Char) {rest : List Char}
    (gap : dropGap text = dropGap (attributesText given rest)) :
    ∃ found last, attributes text = .ok (found, last) ∧ found.map Prod.fst = given ∧
      dropGap last = '\n' :: rest := by
  induction given generalizing text with
  | nil =>
      refine ⟨[], text, attributes_of_none ?_, rfl, gap⟩
      rw [gap]
      rfl
  | cons attr more ih =>
      obtain ⟨lexeme, others⟩ := List.forall_mem_cons.mp lexemes
      have start : dropGap text = attr.text ++ attributesText more rest := by
        rw [gap, attributesText, List.flatMap_cons, List.append_assoc]
        exact lexeme.dropGap_text _
      have boundary := atBoundary_attributesText more rest
      have noSign : ∀ next ∈ (dropGap (attributesText more rest)).head?, next ≠ '=' := by
        intro next first
        rintro rfl
        cases more with
        | nil => cases first
        | cons second behind =>
            have lexeme := others second List.mem_cons_self
            rw [attributesText, List.flatMap_cons, List.append_assoc] at first
            change '=' ∈ (dropGap (second.text ++ attributesText behind rest)).head? at first
            rw [lexeme.dropGap_text, Attribute.text, List.append_assoc] at first
            exact absurd (lexeme.name.start_append first) (by decide)
      obtain ⟨layout, remaining, read, same⟩ := attribute?_text lexeme boundary noSign
      obtain ⟨found, last, later, contents, ended⟩ := ih others remaining same
      refine ⟨(attr, layout) :: found, last, ?_, congrArg (attr :: ·) contents, ended⟩
      rw [attributes_of_some (start ▸ read), later]
      rfl

/-! ### Statements -/

private theorem Statement.text_append (content : Statement) (rest : List Char) :
    content.text ++ rest =
      '@' :: (content.time ++ ' ' :: (content.direction.name.toList ++ ' ' :: (content.phase ++
        ' ' :: (content.label ++ attributesText content.attributes rest)))) := by
  simp only [Statement.text, attributesText, List.append_assoc, List.cons_append, List.nil_append]

private theorem direction?_written (direction : Direction) (rest : List Char) :
    direction? (dropGap (' ' :: (direction.name.toList ++ rest))) = some (direction, rest) := by
  cases direction <;> rfl

private theorem word?_written {isPart : Char → Bool} {word rest : List Char}
    (spells : Spells isPart word)
    (noSpace : isPart ' ' = false) (noTab : isPart '\t' = false) (noMark : isPart '#' = false)
    (stops : ∀ next ∈ rest.head?, isPart next = false) :
    word? isPart (dropGap (' ' :: (word ++ rest))) = some (word, rest) := by
  have gap : dropGap (' ' :: (word ++ rest)) = word ++ rest :=
    dropGap_append_of_spells spells noSpace noTab noMark rest
  rw [gap, word?_append_of_stops spells stops]

private theorem statement_text {content : Statement} (plain : content.IsPlain) (start : List Char)
    {afterSign rest : List Char} (written : content.text ++ rest = '@' :: afterSign) :
    ∃ layout last, statement start afterSign = .ok (content, layout, last) ∧
      dropGap last = '\n' :: rest := by
  rw [content.text_append] at written
  obtain rfl := (List.cons.inj written).2
  obtain ⟨found, last, attributed, contents, ended⟩ :=
    attributes_text plain.attributes (attributesText content.attributes rest) rfl
  have timed := scan_append_of_digits plain.time (.space (content.direction.name.toList ++
    ' ' :: (content.phase ++ ' ' :: (content.label ++ attributesText content.attributes rest))))
  have directed := direction?_written content.direction
    (' ' :: (content.phase ++ ' ' :: (content.label ++ attributesText content.attributes rest)))
  have phased := word?_written plain.phase rfl rfl rfl
    ((AtBoundary.space (content.label ++ attributesText content.attributes rest)).stops rfl rfl)
  have labelled := word?_written plain.label rfl rfl rfl
    ((atBoundary_attributesText content.attributes rest).stops rfl rfl)
  have read := (@statement_eq_ok_iff start _ _).mpr
    ⟨_, _, _, _, _, _, _, _, _, _, timed, directed, phased, labelled, attributed, rfl⟩
  rw [contents] at read
  exact ⟨_, last, read, ended⟩

/-- A line break takes off one character. A carriage return counts for nothing by itself, and the
line feed behind it for an empty line. -/
theorem lineBreak?_cons {char : Char} (broken : isBreak char = true) (line : Nat)
    (rest : List Char) :
    ∃ count next, lineBreak? (char :: rest) = some (count, next) ∧
      statementsFrom (line + count) next = statementsFrom (line + [char].count '\n') rest := by
  rcases isBreak_iff.mp broken with rfl | rfl
  · exact ⟨1, rest, rfl, rfl⟩
  · unfold lineBreak?
    split
    · rename_i feed
      cases feed
    · rename_i behind same
      cases same
      refine ⟨1, behind, rfl, ?_⟩
      rw [statementsFrom.eq_def _ ('\n' :: behind)]
      rfl
    · rename_i same
      cases same
      exact ⟨0, rest, rfl, rfl⟩
    · rename_i neither
      exact absurd rfl (neither rest)

theorem statementsFrom_of_statement {line : Nat} {text afterSign last rest : List Char}
    {content : Statement} {layout : Layout} {char : Char} (sign : dropGap text = '@' :: afterSign)
    (read : statement ('@' :: afterSign) afterSign = .ok (content, layout, last))
    (ended : dropGap last = char :: rest) (broken : isBreak char = true) :
    statementsFrom line text =
      (statementsFrom (line + [char].count '\n') rest).map (⟨line, content, layout⟩ :: ·) := by
  obtain ⟨count, next, found, same⟩ := lineBreak?_cons broken line rest
  rw [statementsFrom, ← same]
  split
  · rename_i none
    cases sign.symm.trans none
  · rename_i behind start
    obtain rfl : afterSign = behind := (List.cons.inj (sign.symm.trans start)).2
    split
    · rename_i failed
      cases read.symm.trans failed
    · rename_i stated
      cases read.symm.trans stated
      split
      · rename_i none
        cases ended.symm.trans none
      · rename_i ending
        cases ended.symm.trans ending
        split
        · rename_i none
          cases found.symm.trans none
        · rename_i broken
          cases found.symm.trans broken
          rfl
  · rename_i noSign other
    exact absurd (List.cons.inj (sign.symm.trans other)).1.symm noSign

private theorem statementsFrom_text {content : Statement} (plain : content.IsPlain) (line : Nat)
    (rest : List Char) :
    ∃ layout, statementsFrom line (content.text ++ rest) =
      (statementsFrom (line + 1) rest).map (⟨line, content, layout⟩ :: ·) := by
  obtain ⟨afterSign, written⟩ : ∃ afterSign, content.text ++ rest = '@' :: afterSign :=
    ⟨_, content.text_append rest⟩
  obtain ⟨layout, last, read, ended⟩ := statement_text plain ('@' :: afterSign) written
  have sign : dropGap (content.text ++ rest) = '@' :: afterSign := by
    rw [written]
    exact dropGap_cons rfl (by decide) afterSign
  exact ⟨layout, statementsFrom_of_statement sign read ended rfl⟩

theorem statementsFrom_flatMap_text {contents : List Statement}
    (plain : ∀ content ∈ contents, content.IsPlain) (line : Nat) :
    ∃ placed, statementsFrom line (contents.flatMap Statement.text) = .ok placed ∧
      placed.map Placed.statement = contents ∧
        placed.map Placed.line = List.range' line contents.length := by
  induction contents generalizing line with
  | nil =>
      refine ⟨[], ?_, rfl, rfl⟩
      rw [List.flatMap_nil, statementsFrom]
      rfl
  | cons content more ih =>
      obtain ⟨first, others⟩ := List.forall_mem_cons.mp plain
      obtain ⟨layout, step⟩ := statementsFrom_text first line (more.flatMap Statement.text)
      obtain ⟨placed, read, statements, lines⟩ := ih others (line + 1)
      refine ⟨⟨line, content, layout⟩ :: placed, ?_, ?_, ?_⟩
      · rw [List.flatMap_cons, step, read]
        rfl
      · rw [List.map_cons, statements]
      · rw [List.map_cons, lines]
        rfl

end Handshake.Trace
