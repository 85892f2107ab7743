import Handshake.Proofs.Trace.Lexeme
import Handshake.Trace.Statement
set_option autoImplicit false

/-! Where the statements of a text stand. No lexeme and no gap reaches over a line feed, so a
statement lies on one line, and its line is one more than the number of line feeds before it. -/

namespace Handshake.Trace

/-! ### Results -/

section

variable {ε α β : Type} {result : Except ε α} {answer : β}

theorem map_eq_ok_iff {change : α → β} :
    result.map change = .ok answer ↔ ∃ found, result = .ok found ∧ change found = answer := by
  cases result with
  | error fault => simp [Except.map]
  | ok found => simp [Except.map]

theorem map_eq_error_iff {change : α → β} {fault : ε} :
    result.map change = .error fault ↔ result = .error fault := by
  cases result with
  | error other => simp [Except.map]
  | ok found => simp [Except.map]

theorem bind_eq_ok_iff {next : α → Except ε β} :
    result >>= next = .ok answer ↔ ∃ found, result = .ok found ∧ next found = .ok answer := by
  cases result with
  | error fault => simp [bind, Except.bind]
  | ok found => simp [bind, Except.bind]

private theorem require_eq_ok_iff {expected : Expected} {rest : List Char} {option : Option α}
    {found : α} : require expected rest option = .ok found ↔ option = some found := by
  constructor
  · exact require_eq_ok
  · rintro rfl
    rfl

end

/-! ### Characters -/

theorem ne_of_outside {isPart : Char → Bool} {part char : Char} (inside : isPart part = true)
    (outside : isPart char = false) : part ≠ char := by
  rintro rfl
  rw [inside] at outside
  cases outside

theorem isBlank_iff {char : Char} : isBlank char = true ↔ char = ' ' ∨ char = '\t' := by
  rw [isBlank, Bool.or_eq_true, decide_eq_true_eq, decide_eq_true_eq]

theorem isBreak_iff {char : Char} : isBreak char = true ↔ char = '\n' ∨ char = '\r' := by
  rw [isBreak, Bool.or_eq_true, decide_eq_true_eq, decide_eq_true_eq]

/-! ### Lines -/

/-- A remainder of a text begins on the line on which the text begins. -/
def WithinLine (text rest : List Char) : Prop := ∃ part, text = part ++ rest ∧ '\n' ∉ part

namespace WithinLine

variable {text middle rest : List Char}

private theorem refl (text : List Char) : WithinLine text text := ⟨[], rfl, List.not_mem_nil⟩

private theorem trans (first : WithinLine text middle) (second : WithinLine middle rest) :
    WithinLine text rest := by
  obtain ⟨front, rfl, frontLine⟩ := first
  obtain ⟨back, rfl, backLine⟩ := second
  refine ⟨front ++ back, (List.append_assoc front back rest).symm, ?_⟩
  exact fun member => (List.mem_append.mp member).elim frontLine backLine

private theorem cons {char : Char} (inLine : char ≠ '\n') (within : WithinLine text rest) :
    WithinLine (char :: text) rest := by
  obtain ⟨part, rfl, partLine⟩ := within
  exact ⟨char :: part, rfl, fun member => (List.mem_cons.mp member).elim
    (fun same => inLine same.symm) partLine⟩

end WithinLine

/-! ### Gaps -/

private theorem withinLine_dropGapFrom (inComment : Bool) (text : List Char) :
    WithinLine text (dropGapFrom inComment text) := by
  induction text generalizing inComment with
  | nil => exact .refl []
  | cons char rest ih =>
      unfold dropGapFrom
      split
      · split
        · exact .refl _
        · rename_i inLine
          refine (ih true).cons ?_
          rintro rfl
          exact inLine rfl
      · split
        · rename_i blank
          exact (ih false).cons (ne_of_outside blank rfl)
        · split
          · rename_i mark
            rw [mark]
            exact (ih true).cons (by decide)
          · exact .refl _

theorem withinLine_dropGap (text : List Char) : WithinLine text (dropGap text) :=
  withinLine_dropGapFrom false text

theorem isBreak_of_dropGapFrom {text rest : List Char} {char : Char}
    (ended : dropGapFrom true text = char :: rest) : isBreak char = true := by
  induction text with
  | nil => cases ended
  | cons first others ih =>
      unfold dropGapFrom at ended
      rw [if_pos rfl] at ended
      split at ended
      · rename_i broken
        cases ended
        exact broken
      · exact ih ended

theorem blanks_of_dropGap {text rest : List Char} {char : Char}
    (ended : dropGap text = char :: rest) (inLine : isBreak char = false) :
    ∃ blanks, text = blanks ++ char :: rest ∧ ∀ blank ∈ blanks, isBlank blank = true := by
  induction text with
  | nil => cases ended
  | cons first others ih =>
      unfold dropGap dropGapFrom at ended
      rw [if_neg Bool.false_ne_true] at ended
      split at ended
      · rename_i blank
        obtain ⟨blanks, rfl, all⟩ := ih ended
        exact ⟨first :: blanks, rfl, List.forall_mem_cons.mpr ⟨blank, all⟩⟩
      · split at ended
        · -- a comment would reach up to a line break
          rw [isBreak_of_dropGapFrom ended] at inLine
          cases inLine
        · exact ⟨[], ended, by rintro _ ⟨⟩⟩

private theorem blanks_of_dropGap_append {text part rest : List Char}
    (ended : dropGap text = part ++ rest)
    (nonempty : part ≠ []) (inLine : ∀ char ∈ part, isBreak char = false) :
    ∃ blanks, text = blanks ++ (part ++ rest) ∧ ∀ blank ∈ blanks, isBlank blank = true := by
  cases part with
  | nil => exact absurd rfl nonempty
  | cons char others => exact blanks_of_dropGap ended (inLine char List.mem_cons_self)

private theorem lineBreak?_ending {text rest : List Char} {count : Nat}
    (found : lineBreak? text = some (count, rest)) :
    ∃ ending, text = ending ++ rest ∧ ending.count '\n' = count ∧
      ∃ last ∈ ending.getLast?, isBreak last = true := by
  unfold lineBreak? at found
  split at found <;> cases found
  · exact ⟨['\n'], rfl, rfl, _, rfl, rfl⟩
  · exact ⟨['\r', '\n'], rfl, rfl, _, rfl, rfl⟩
  · exact ⟨['\r'], rfl, rfl, _, rfl, rfl⟩

/-! ### Lexemes -/

private theorem not_mem_of_outside {isPart : Char → Bool} {word : List Char}
    (all : ∀ char ∈ word, isPart char = true) (outside : isPart '\n' = false) : '\n' ∉ word :=
  fun member => ne_of_outside (all _ member) outside rfl

private theorem name?_withinLine {text name rest : List Char}
    (found : name? text = some (name, rest)) :
    WithinLine text rest := by
  obtain ⟨same, named, -⟩ := name?_eq_some_iff.mp found
  exact ⟨name, same, not_mem_of_outside named.all (by decide)⟩

private theorem scanMarked_append {isMark isDigit : Char → Bool} (noMark : isMark '\n' = false)
    (noDigit : isLiteralPart isDigit '\n' = false) {text literal rest : List Char}
    (found : Integer.scanMarked isMark isDigit text = some (literal, rest)) :
    text = literal ++ rest ∧ '\n' ∉ literal := by
  obtain ⟨same, ⟨mark, digits, rfl, marked, spells⟩, -⟩ := scanMarked_eq_some_iff.mp found
  refine ⟨same, ?_⟩
  rw [List.mem_cons, List.mem_cons]
  rintro (feed | feed | feed)
  · cases feed
  · exact ne_of_outside marked noMark feed.symm
  · exact not_mem_of_outside spells.all noDigit feed

private theorem scanDecimal_append {text literal rest : List Char}
    (found : Integer.scanDecimal text = some (literal, rest)) :
    text = literal ++ rest ∧ '\n' ∉ literal := by
  obtain ⟨same, ⟨first, digits, rfl, digit, all⟩, -⟩ := scanDecimal_eq_some_iff.mp found
  refine ⟨same, ?_⟩
  rw [List.mem_cons]
  rintro (feed | feed)
  · exact ne_of_outside digit (by decide) feed.symm
  · exact not_mem_of_outside all (by decide) feed

theorem scan_append {text literal rest : List Char}
    (found : Integer.scan text = some (literal, rest)) :
    text = literal ++ rest ∧ '\n' ∉ literal := by
  unfold Integer.scan at found
  rw [Option.or_eq_some_iff, Option.or_eq_some_iff] at found
  rcases found with hexadecimal | ⟨-, binary | ⟨-, decimal⟩⟩
  · exact scanMarked_append (by decide) (by decide) hexadecimal
  · exact scanMarked_append (by decide) (by decide) binary
  · exact scanDecimal_append decimal

private theorem value?_withinLine {text rest : List Char} {value : Value}
    (found : value? text = some (value, rest)) : WithinLine text rest := by
  rcases value?_eq_some_iff.mp found with ⟨literal, -, scanned⟩ | ⟨word, -, -, named⟩
  · exact ⟨literal, scan_append scanned⟩
  · exact name?_withinLine named

theorem direction?_append {text rest : List Char} {direction : Direction}
    (found : direction? text = some (direction, rest)) :
    text = direction.name.toList ++ rest := by
  unfold direction? at found
  split at found <;> cases found <;> rfl

private theorem isBreak_of_mem_name (direction : Direction) :
    ∀ char ∈ direction.name.toList, isBreak char = false := by
  have inLine : direction.name.toList.all (fun char => !isBreak char) = true := by
    cases direction <;> rfl
  simpa using inLine

private theorem direction?_withinLine {text rest : List Char} {direction : Direction}
    (found : direction? text = some (direction, rest)) : WithinLine text rest :=
  ⟨_, direction?_append found, by cases direction <;> decide⟩

private theorem word?_withinLine {isPart : Char → Bool} (outside : isPart '\n' = false)
    {text word rest : List Char} (found : word? isPart text = some (word, rest)) :
    WithinLine text rest := by
  obtain ⟨same, spells, -⟩ := word?_eq_some_iff.mp found
  exact ⟨word, same, not_mem_of_outside spells.all outside⟩

private theorem blanks_of_word? {isPart : Char → Bool} (noFeed : isPart '\n' = false)
    (noReturn : isPart '\r' = false) {text word rest : List Char}
    (found : word? isPart (dropGap text) = some (word, rest)) :
    ∃ blanks, text = blanks ++ (word ++ rest) ∧ ∀ blank ∈ blanks, isBlank blank = true := by
  obtain ⟨same, spells, -⟩ := word?_eq_some_iff.mp found
  refine blanks_of_dropGap_append same spells.nonempty (fun char member => ?_)
  refine Bool.eq_false_iff.mpr (fun broken => ?_)
  exact (isBreak_iff.mp broken).elim (ne_of_outside (spells.all char member) noFeed)
    (ne_of_outside (spells.all char member) noReturn)

/-! ### Attributes -/

private theorem attribute?_withinLine {text rest : List Char} {content : Attribute}
    {layout : AttributeLayout} (found : attribute? text = .ok (some (content, layout, rest))) :
    WithinLine text rest := by
  unfold attribute? at found
  split at found
  · cases found
  · rename_i name afterName named
    have gap := (name?_withinLine named).trans (withinLine_dropGap afterName)
    split at found
    · rename_i afterSign sign
      rw [sign] at gap
      split at found
      · cases found
      · rename_i value remaining valued
        cases found
        exact gap.trans (((withinLine_dropGap _).trans (value?_withinLine valued)).cons (by decide))
    · cases found
      exact gap

private theorem attributes_withinLine {text rest : List Char}
    {found : List (Attribute × AttributeLayout)}
    (ended : attributes text = .ok (found, rest)) : WithinLine text rest := by
  fun_induction attributes text generalizing found rest with
  | case1 => cases ended
  | case2 =>
      cases ended
      exact .refl _
  | case3 text content layout remaining read ih =>
      cases tail : attributes remaining with
      | error mismatch =>
          rw [tail] at ended
          cases ended
      | ok later =>
          rw [tail] at ended
          cases ended
          exact (withinLine_dropGap text).trans ((attribute?_withinLine read).trans (ih tail))

/-! ### Statements -/

theorem statement_eq_ok_iff {text afterSign : List Char} {answer : Statement × Layout × List Char} :
    statement text afterSign = .ok answer ↔
      ∃ time rest direction afterDirection phase afterPhase label afterLabel found last,
        Integer.scan afterSign = some (time, rest) ∧
        direction? (dropGap rest) = some (direction, afterDirection) ∧
        word? Char.isAlpha (dropGap afterDirection) = some (phase, afterPhase) ∧
        word? isLabelPart (dropGap afterPhase) = some (label, afterLabel) ∧
        attributes afterLabel = .ok (found, last) ∧
        (⟨time, direction, phase, label, found.map Prod.fst⟩,
          ⟨⟨text, rest⟩, ⟨afterSign, rest⟩, ⟨dropGap afterDirection, afterPhase⟩,
            ⟨dropGap afterPhase, afterLabel⟩, found.map Prod.snd⟩, last) = answer := by
  simp only [statement, bind_eq_ok_iff, require_eq_ok_iff, Prod.exists, Except.ok.injEq,
    exists_and_left]

/-- A text begins with the words of a statement: an at sign and the time, then the direction, the
phase and the label, between which there is nothing but blanks. The label is as long as it can
be. -/
def Statement.Begins (content : Statement) (text : List Char) : Prop :=
  ∃ first second third behind,
    text = '@' :: (content.time ++ (first ++ (content.direction.name.toList ++ (second ++
      (content.phase ++ (third ++ (content.label ++ behind))))))) ∧
    (∀ char ∈ first ++ second ++ third, isBlank char = true) ∧
    (∀ char ∈ content.label, isLabelPart char = true) ∧
    ∀ next ∈ behind.head?, isLabelPart next = false

private theorem begins_of_statement {text afterSign last : List Char} {content : Statement}
    {layout : Layout} (read : statement text afterSign = .ok (content, layout, last)) :
    content.Begins ('@' :: afterSign) ∧ WithinLine afterSign last := by
  obtain ⟨time, rest, direction, afterDirection, phase, afterPhase, label, afterLabel, found, _,
    timed, directed, phased, labelled, attributed, same⟩ := statement_eq_ok_iff.mp read
  cases same
  have start := direction?_append directed
  obtain ⟨first, behindTime, blanksTime⟩ := blanks_of_dropGap_append start
    (by cases direction <;> decide) (isBreak_of_mem_name direction)
  obtain ⟨second, behindDirection, blanksDirection⟩ := blanks_of_word? rfl rfl phased
  obtain ⟨third, behindPhase, blanksPhase⟩ := blanks_of_word? rfl rfl labelled
  obtain ⟨-, spells, boundary⟩ := word?_eq_some_iff.mp labelled
  constructor
  · refine ⟨first, second, third, afterLabel, ?_, ?_, spells.all, boundary⟩
    · rw [← behindPhase, ← behindDirection, ← behindTime, ← (scan_append timed).1]
    · intro char member
      rw [List.mem_append, List.mem_append] at member
      exact member.elim (fun inner => inner.elim (blanksTime char) (blanksDirection char))
        (blanksPhase char)
  · have line : WithinLine afterSign afterLabel :=
      .trans ⟨time, scan_append timed⟩ <| .trans (withinLine_dropGap _) <|
        .trans (direction?_withinLine directed) <| .trans (withinLine_dropGap _) <|
        .trans (word?_withinLine (by decide) phased) <| .trans (withinLine_dropGap _) <|
        word?_withinLine (by decide) labelled
    exact line.trans (attributes_withinLine attributed)

/-! ### Lines of statements -/

/-- What remains of a text begins one of its lines. -/
def StartsLine (text : List Char) (line : Nat) (rest : List Char) : Prop :=
  ∃ lines, text = lines ++ rest ∧ (∀ last ∈ lines.getLast?, isBreak last = true) ∧
    line = 1 + lines.count '\n'

/-- A statement stands on its line of a text, with nothing but blanks before it. -/
def Placed.StandsIn (placed : Placed) (text : List Char) : Prop :=
  ∃ blanks rest, StartsLine text placed.line (blanks ++ rest) ∧
    (∀ char ∈ blanks, isBlank char = true) ∧ placed.statement.Begins rest

theorem StartsLine.beyond {text rest last next : List Char} {line count : Nat}
    (starts : StartsLine text line rest) (within : WithinLine rest last)
    (found : lineBreak? last = some (count, next)) : StartsLine text (line + count) next := by
  obtain ⟨lines, rfl, -, counted⟩ := starts
  obtain ⟨part, rfl, inLine⟩ := within
  obtain ⟨ending, rfl, feeds, final, atBreak, broken⟩ := lineBreak?_ending found
  refine ⟨lines ++ (part ++ ending), by simp only [List.append_assoc], ?_, ?_⟩
  · intro char atEnd
    rw [List.getLast?_append, List.getLast?_append, atBreak, Option.some_or, Option.some_or,
      Option.mem_some_iff] at atEnd
    exact atEnd ▸ broken
  · rw [List.count_append, List.count_append, List.count_eq_zero.mpr inLine, feeds, counted]
    omega

theorem standsIn_of_statement {text rest afterSign last : List Char} {line : Nat}
    {content : Statement} {layout : Layout} (starts : StartsLine text line rest)
    (sign : dropGap rest = '@' :: afterSign)
    (read : statement ('@' :: afterSign) afterSign = .ok (content, layout, last)) :
    (Placed.mk line content layout).StandsIn text ∧ WithinLine rest (dropGap last) := by
  obtain ⟨begins, within⟩ := begins_of_statement read
  obtain ⟨blanks, behind, all⟩ := blanks_of_dropGap sign (by decide)
  have gap := withinLine_dropGap rest
  rw [sign] at gap
  exact ⟨⟨blanks, '@' :: afterSign, behind ▸ starts, all, begins⟩,
    gap.trans ((within.trans (withinLine_dropGap last)).cons (by decide))⟩

private theorem standsIn_of_statementsFrom {text rest : List Char} {line : Nat}
    {placed : List Placed}
    (starts : StartsLine text line rest) (read : statementsFrom line rest = .ok placed) :
    ∀ one ∈ placed, one.StandsIn text := by
  fun_induction statementsFrom line rest generalizing placed with
  | case1 =>
      cases read
      exact fun _ member => nomatch member
  | case2 => cases read
  | case3 line rest afterSign sign content layout last stated =>
      cases read
      exact List.forall_mem_singleton.mpr (standsIn_of_statement starts sign stated).1
  | case4 => cases read
  | case5 line rest afterSign sign content layout last stated char behind ending count next
      found ih =>
      obtain ⟨later, others, rfl⟩ := map_eq_ok_iff.mp read
      obtain ⟨stands, within⟩ := standsIn_of_statement starts sign stated
      rw [ending] at within
      exact List.forall_mem_cons.mpr ⟨stands, ih (starts.beyond within found) others⟩
  | case6 => cases read
  | case7 line rest char behind noSign gap count next found ih =>
      have within := withinLine_dropGap rest
      rw [gap] at within
      exact ih (starts.beyond within found) read

theorem standsIn_of_statements {text : List Char} {placed : List Placed}
    (read : statements text = .ok placed) : ∀ one ∈ placed, one.StandsIn text :=
  standsIn_of_statementsFrom ⟨[], rfl, by rintro _ ⟨⟩, rfl⟩ read

theorem le_line_of_statementsFrom {rest : List Char} {line : Nat} {placed : List Placed}
    (read : statementsFrom line rest = .ok placed) :
    (placed.map Placed.line).Pairwise (· ≤ ·) ∧ ∀ one ∈ placed, line ≤ one.line := by
  fun_induction statementsFrom line rest generalizing placed with
  | case1 =>
      cases read
      exact ⟨.nil, fun _ member => nomatch member⟩
  | case2 => cases read
  | case3 =>
      cases read
      exact ⟨List.pairwise_singleton _ _, List.forall_mem_singleton.mpr (Nat.le_refl _)⟩
  | case4 => cases read
  | case5 line rest afterSign sign content layout last stated char behind ending count next
      found ih =>
      obtain ⟨later, others, rfl⟩ := map_eq_ok_iff.mp read
      obtain ⟨ordered, bounded⟩ := ih others
      have beyond : ∀ one ∈ later, line ≤ one.line :=
        fun one member => Nat.le_of_add_right_le (bounded one member)
      exact ⟨List.pairwise_cons.mpr ⟨List.forall_mem_map.mpr beyond, ordered⟩,
        List.forall_mem_cons.mpr ⟨Nat.le_refl line, beyond⟩⟩
  | case6 => cases read
  | case7 line rest char behind noSign gap count next found ih =>
      obtain ⟨ordered, bounded⟩ := ih read
      exact ⟨ordered, fun one member => Nat.le_of_add_right_le (bounded one member)⟩

end Handshake.Trace
