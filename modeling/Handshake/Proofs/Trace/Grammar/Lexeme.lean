import Mathlib.Data.List.DropRight
import Handshake.Proofs.Trace.Grammar
import Handshake.Proofs.Trace.Spaced
set_option autoImplicit false

/-! The lexemes of the grammar are those that the reader of traces knows, and what the grammar
skips is a gap. -/

namespace Handshake.Trace.Grammar

open Matcher

/-! ### Classes of characters -/

private theorem either_one (isPart isOther : Char → Bool) :
    either (one isPart) (one isOther) = one (fun char => isPart char || isOther char) := by
  funext text
  cases text with
  | nil => rfl
  | cons char rest =>
      cases part : isPart char with
      | true =>
          rw [either_of_some (one_of_true part rest), one_of_true (by rw [part]; rfl)]
      | false =>
          rw [either_of_none (one_of_false part rest), one, one, part]
          rfl

private theorem repeated_one (isPart : Char → Bool) (text : List Char) :
    repeated (one isPart) text = ([], text.dropWhile isPart) := by
  induction text with
  | nil => exact repeated_of_none rfl
  | cons char rest ih =>
      cases part : isPart char with
      | false =>
          have stop : ¬ isPart char = true := fun holds => by cases part.symm.trans holds
          rw [repeated_of_none (one_of_false part rest), List.dropWhile_cons_of_neg stop]
      | true =>
          rw [repeated_of_some (one_of_true part rest) (Nat.lt_succ_self _), ih,
            List.dropWhile_cons_of_pos part]
          rfl

/-- A matcher takes off a text what a reader does, and has no pairs. -/
def Takes {α : Type} (matcher : Matcher) (reader : List Char → Option (α × List Char)) : Prop :=
  ∀ text, matcher text = (reader text).map (fun (_, rest) => ([], rest))

private theorem star_one (isPart : Char → Bool) (text : List Char) :
    star (one isPart) text = some ([], text.dropWhile isPart) :=
  congrArg some (repeated_one isPart text)

private theorem plus_one (isPart : Char → Bool) : Takes (plus (one isPart)) (word? isPart) := by
  intro text
  cases text with
  | nil => rfl
  | cons char rest =>
      cases part : isPart char with
      | false =>
          have stop : ¬ isPart char = true := fun holds => by cases part.symm.trans holds
          rw [plus, both_of_none (one_of_false part rest), word?,
            if_pos (List.takeWhile_cons_of_neg stop)]
          rfl
      | true =>
          have taken := List.takeWhile_cons_of_pos (l := rest) part
          rw [plus, both_of_some (one_of_true part rest), star_one, word?, taken,
            if_neg (List.cons_ne_nil _ _), List.dropWhile_cons_of_pos part]
          rfl

/-! ### Literals -/

private theorem literal_cons (char : Char) (others : List Char) :
    literal (char :: others) = both (Matcher.char char) (literal others) :=
  rfl

private theorem literal_append (word rest : List Char) :
    literal word (word ++ rest) = some ([], rest) := by
  induction word with
  | nil => rfl
  | cons char others ih =>
      rw [literal_cons, List.cons_append, both_of_some (char_self char (others ++ rest)), ih]
      rfl

private theorem literal_of_ne {word text : List Char} (differs : ∀ rest, text ≠ word ++ rest) :
    literal word text = none := by
  induction word generalizing text with
  | nil => exact absurd rfl (differs text)
  | cons char others ih =>
      rw [literal_cons]
      by_cases first : ∃ rest, text = char :: rest
      · obtain ⟨rest, rfl⟩ := first
        have absent := ih (fun last behind => differs last (congrArg (char :: ·) behind))
        rw [both_of_some (char_self char rest), absent]
        rfl
      · exact both_of_none (char_of_ne (fun rest same => first ⟨rest, same⟩))

theorem newline_eq : Takes newline lineBreak? := by
  intro text
  unfold lineBreak?
  split
  · rfl
  · rename_i rest
    exact (either_of_none (char_of_ne (fun _ same => by cases same))).trans
      (either_of_some (literal_append ['\r', '\n'] rest))
  · rename_i rest alone
    have noBoth : literal ['\r', '\n'] ('\r' :: rest) = none :=
      literal_of_ne (fun last same => alone last (List.cons.inj same).2)
    exact (either_of_none (char_of_ne (fun _ same => by cases same))).trans
      (either_of_none noBoth)
  · rename_i feed both alone
    exact (either_of_none (char_of_ne feed)).trans
      ((either_of_none (literal_of_ne both)).trans (char_of_ne alone))

/-! ### Gaps -/

theorem whitespace_eq : whitespace = one isBlank :=
  either_one _ _

theorem dropGapFrom_true_eq (text : List Char) :
    dropGapFrom true text = text.dropWhile (fun char => !isBreak char) := by
  induction text with
  | nil => rfl
  | cons char rest ih =>
      rw [dropGapFrom, if_pos rfl]
      cases broken : isBreak char with
      | true =>
          rw [List.dropWhile_cons_of_neg (by rw [broken]; exact Bool.false_ne_true)]
          rfl
      | false =>
          rw [List.dropWhile_cons_of_pos (by rw [broken]; rfl), ← ih]
          rfl

private theorem notAhead_newline :
    both (notAhead newline) (one (fun _ => true)) = one (fun char => !isBreak char) := by
  funext text
  cases text with
  | nil => rfl
  | cons char rest =>
      cases broken : isBreak char with
      | true =>
          obtain ⟨count, next, found, -⟩ := lineBreak?_cons broken 0 rest
          have matched : notAhead newline (char :: rest) = none := by
            rw [notAhead, newline_eq, found]
            rfl
          rw [both_of_none matched, one_of_false (by rw [broken]; rfl)]
      | false =>
          have absent : lineBreak? (char :: rest) = none := by
            unfold lineBreak?
            split
            case h_4 => rfl
            all_goals
              rename_i same
              cases same
              exact absurd broken (by decide)
          have matched : notAhead newline (char :: rest) = some ([], char :: rest) := by
            rw [notAhead, newline_eq, absent]
            rfl
          have part : (fun char => !isBreak char) char = true := congrArg not broken
          rw [both_of_some matched, one_of_true rfl, one_of_true part]
          rfl

private theorem comment_cons (rest : List Char) :
    comment ('#' :: rest) = some ([], dropGapFrom true rest) := by
  rw [comment, both_of_some (char_self '#' rest), notAhead_newline, star_one,
    dropGapFrom_true_eq]
  rfl

private theorem comment_of_ne {text : List Char} (noMark : ∀ rest, text ≠ '#' :: rest) :
    comment text = none :=
  both_of_none (char_of_ne noMark)

private theorem dropGap_dropWhile (text : List Char) :
    dropGap (text.dropWhile isBlank) = dropGap text := by
  have blank : Blank (text.takeWhile isBlank) := fun _ member => List.mem_takeWhile_imp member
  conv_rhs => rw [← List.takeWhile_append_dropWhile (p := isBlank) (l := text)]
  exact (dropGap_append blank _).symm

private theorem dropGap_of_solid {text : List Char} (solid : text.dropWhile isBlank = text)
    (noMark : ∀ rest, text ≠ '#' :: rest) : dropGap text = text := by
  cases text with
  | nil => rfl
  | cons char rest =>
      refine dropGap_cons (Bool.eq_false_iff.mpr (fun blank => ?_))
        (fun same => noMark rest (by rw [same])) rest
      have shorter := dropWhile_length_le isBlank rest
      rw [List.dropWhile_cons_of_pos blank] at solid
      have lengths := congrArg List.length solid
      rw [List.length_cons] at lengths
      omega

private theorem dropWhile_of_gapless {text : List Char} (gapless : dropGap text = text) :
    text.dropWhile isBlank = text := by
  cases text with
  | nil => rfl
  | cons char rest =>
      refine List.dropWhile_cons_of_neg (fun blank => ?_)
      have shorter := dropGap_length_le rest
      rw [dropGap, dropGapFrom, if_neg Bool.false_ne_true, if_pos blank] at gapless
      have lengths := congrArg List.length gapless
      rw [List.length_cons] at lengths
      exact Nat.not_succ_le_self _ (lengths ▸ shorter)

/-- Comments in a row are one, since it goes on up to the end of the line. -/
theorem repeated_comment {text : List Char} (solid : text.dropWhile isBlank = text) :
    repeated (both comment (star whitespace)) text = ([], dropGap text) := by
  by_cases mark : ∃ rest, text = '#' :: rest
  · obtain ⟨rest, rfl⟩ := mark
    have matched : both comment (star whitespace) ('#' :: rest) =
        some ([], dropGapFrom true rest) := by
      rw [both_of_some (comment_cons rest), whitespace_eq, star_one,
        dropWhile_of_gapless (dropGap_dropGapFrom true rest)]
      rfl
    have ended : both comment (star whitespace) (dropGapFrom true rest) = none := by
      refine both_of_none (comment_of_ne (fun last same => ?_))
      exact absurd (isBreak_of_dropGapFrom same) (by decide)
    have shorter := Nat.lt_succ_of_le (dropGapFrom_length_le true rest)
    rw [repeated_of_some matched shorter, repeated_of_none ended]
    rfl
  · have noMark : ∀ rest, text ≠ '#' :: rest := fun rest same => mark ⟨rest, same⟩
    rw [repeated_of_none (both_of_none (comment_of_ne noMark)), dropGap_of_solid solid noMark]

theorem skip_eq (text : List Char) : skip text = some ([], dropGap text) := by
  have blanks : star whitespace text = some ([], text.dropWhile isBlank) := by
    rw [whitespace_eq, star_one]
  have solid : (text.dropWhile isBlank).dropWhile isBlank = text.dropWhile isBlank :=
    List.dropWhile_idempotent isBlank text
  rw [skip, both_of_some blanks, Matcher.star, repeated_comment solid, dropGap_dropWhile]
  rfl

theorem spaced_of_none {first second : Matcher} {text : List Char} (absent : first text = none) :
    spaced first second text = none :=
  both_of_none absent

theorem spaced_of_some {first second : Matcher} {text rest : List Char} {found : List Pair}
    (matched : first text = some (found, rest)) :
    spaced first second text =
      (second (dropGap rest)).map (fun (more, last) => (found ++ more, last)) := by
  rw [spaced, both_of_some matched, both_of_some (skip_eq rest), Option.map_map]
  rfl

theorem spaced_eq_some {first second : Matcher} {text last : List Char} {pairs : List Pair}
    (matched : spaced first second text = some (pairs, last)) :
    ∃ found rest more, first text = some (found, rest) ∧
      second (dropGap rest) = some (more, last) := by
  cases matching : first text with
  | none => cases (spaced_of_none matching).symm.trans matched
  | some one =>
      obtain ⟨found, rest⟩ := one
      rw [spaced_of_some matching] at matched
      obtain ⟨⟨more, _⟩, following, same⟩ := Option.map_eq_some_iff.mp matched
      cases same
      exact ⟨found, rest, more, rfl, following⟩

/-! ### Lexemes -/

section

variable {α : Type} {first second : Matcher} {reader : List Char → Option (α × List Char)}
  {isMark isDigit : Char → Bool} {text : List Char}

private theorem Takes.either {other : List Char → Option (α × List Char)}
    (takes : Takes first reader)
    (others : Takes second other) :
    Takes (either first second) (fun text => (reader text).or (other text)) := by
  intro text
  rw [Matcher.either, takes, others, Option.map_or]

private theorem Takes.atomic (takes : Takes first reader) (rule : Rule) (text : List Char) :
    atomic rule first text =
      (reader text).map (fun (_, rest) => ([⟨rule, text, rest, []⟩], rest)) := by
  rw [Matcher.atomic, takes, Option.map_map]
  rfl

private theorem takes_marked {marks : Matcher}
    (marked : ∀ mark rest, marks ('0' :: mark :: rest) =
      if isMark mark then some ([], rest) else none)
    (unmarked : ∀ text, (∀ mark rest, text ≠ '0' :: mark :: rest) → marks text = none) :
    Takes (both marks (plus (one (isLiteralPart isDigit))))
      (Integer.scanMarked isMark isDigit) := by
  intro text
  by_cases zero : ∃ mark rest, text = '0' :: mark :: rest
  · obtain ⟨mark, rest, rfl⟩ := zero
    by_cases isMarked : isMark mark = true
    · have first : marks ('0' :: mark :: rest) = some ([], rest) := (marked mark rest).trans
        (if_pos isMarked)
      rw [both_of_some first, plus_one]
      by_cases nonempty : rest.takeWhile (isLiteralPart isDigit) = []
      · have absent : Integer.scanMarked isMark isDigit ('0' :: mark :: rest) = none :=
          if_neg (fun found => found.2.2 nonempty)
        rw [word?, if_pos nonempty, absent]
        rfl
      · have found : Integer.scanMarked isMark isDigit ('0' :: mark :: rest) =
            some ('0' :: mark :: rest.takeWhile (isLiteralPart isDigit),
              rest.dropWhile (isLiteralPart isDigit)) := if_pos ⟨rfl, isMarked, nonempty⟩
        rw [word?, if_neg nonempty, found]
        rfl
    · have absent : Integer.scanMarked isMark isDigit ('0' :: mark :: rest) = none :=
        if_neg (fun found => isMarked found.2.1)
      rw [both_of_none ((marked mark rest).trans (if_neg isMarked)), absent]
      rfl
  · have noZero : ∀ mark rest, text ≠ '0' :: mark :: rest :=
      fun mark rest same => zero ⟨mark, rest, same⟩
    have absent : Integer.scanMarked isMark isDigit text = none :=
      scanMarked_eq_none_iff.mpr (fun mark digit behind same => absurd same (noZero mark _))
    rw [both_of_none (unmarked text noZero), absent]
    rfl

private theorem marks_cons (small large mark : Char) (rest : List Char) :
    either (literal ['0', small]) (literal ['0', large]) ('0' :: mark :: rest) =
      if (mark = small || mark = large : Bool) then some ([], rest) else none := by
  have other : ∀ sought, mark ≠ sought → literal ['0', sought] ('0' :: mark :: rest) = none :=
    fun sought differs => literal_of_ne (fun last same =>
      differs (List.cons.inj (List.cons.inj same).2).1)
  by_cases isSmall : mark = small
  · subst isSmall
    rw [if_pos (by rw [decide_eq_true rfl]; rfl)]
    exact either_of_some (literal_append ['0', mark] rest)
  · rw [either_of_none (other small isSmall), decide_eq_false isSmall, Bool.false_or]
    by_cases isLarge : mark = large
    · subst isLarge
      rw [if_pos (decide_eq_true rfl)]
      exact literal_append ['0', mark] rest
    · rw [other large isLarge, if_neg (by rw [decide_eq_false isLarge]; exact Bool.false_ne_true)]

private theorem marks_of_ne (small large : Char) (text : List Char)
    (noZero : ∀ mark rest, text ≠ '0' :: mark :: rest) :
    either (literal ['0', small]) (literal ['0', large]) text = none :=
  (either_of_none (literal_of_ne (fun rest same => noZero small rest same))).trans
    (literal_of_ne (fun rest same => noZero large rest same))

private theorem takes_hexInteger :
    Takes hexInteger (Integer.scanMarked Integer.isHexMark Integer.isHexDigit) := by
  rw [hexInteger, char, either_one]
  exact takes_marked (marks_cons 'x' 'X') (marks_of_ne 'x' 'X')

private theorem takes_binaryInteger :
    Takes binaryInteger (Integer.scanMarked Integer.isBinaryMark Integer.isBinaryDigit) := by
  have digits : (fun char : Char => decide (char = '0') || (decide (char = '1') ||
      decide (char = '_'))) = isLiteralPart Integer.isBinaryDigit :=
    funext (fun char => (Bool.or_assoc _ _ _).symm)
  rw [binaryInteger, char, char, char, either_one, either_one, digits]
  exact takes_marked (marks_cons 'b' 'B') (marks_of_ne 'b' 'B')

private theorem takes_first (isFirst isPart : Char → Bool)
    {reader : List Char → Option (List Char × List Char)}
    (reads : ∀ first rest, reader (first :: rest) =
      if isFirst first then some (first :: rest.takeWhile isPart, rest.dropWhile isPart) else none)
    (ended : reader [] = none) : Takes (both (one isFirst) (star (one isPart))) reader := by
  intro text
  cases text with
  | nil =>
      rw [ended]
      rfl
  | cons first rest =>
      rw [reads]
      cases part : isFirst first with
      | true =>
          rw [both_of_some (one_of_true part rest), star_one]
          rfl
      | false =>
          rw [both_of_none (one_of_false part rest)]
          rfl

private theorem takes_decimalInteger : Takes decimalInteger Integer.scanDecimal := by
  rw [decimalInteger, char, either_one]
  exact takes_first Char.isDigit (isLiteralPart Char.isDigit) (fun _ _ => rfl) rfl

theorem integer_eq (text : List Char) :
    integer text =
      (Integer.scan text).map (fun (_, rest) => ([⟨.integer, text, rest, []⟩], rest)) :=
  (takes_hexInteger.either (takes_binaryInteger.either takes_decimalInteger)).atomic .integer text

theorem ident_eq (text : List Char) :
    ident text = (name? text).map (fun (_, rest) => ([⟨.ident, text, rest, []⟩], rest)) := by
  have takes : Takes (both (Matcher.either (one Char.isAlpha) (char '_'))
      (star (Matcher.either (one Char.isAlphanum) (char '_')))) name? := by
    rw [char, either_one, either_one]
    exact takes_first isNameStart isNamePart (fun _ _ => rfl) rfl
  exact takes.atomic .ident text

theorem phase_eq (text : List Char) :
    phase text =
      (word? Char.isAlpha text).map (fun (_, rest) => ([⟨.phase, text, rest, []⟩], rest)) :=
  (plus_one Char.isAlpha).atomic .phase text

theorem label_eq (text : List Char) :
    label text =
      (word? isLabelPart text).map (fun (_, rest) => ([⟨.label, text, rest, []⟩], rest)) := by
  have parts : (fun char : Char => char.isAlphanum || (decide (char = '_') ||
      (decide (char = '-') || decide (char = '.')))) = isLabelPart := by
    funext char
    rw [isLabelPart, isNamePart, Bool.or_assoc, Bool.or_assoc]
  have takes : Takes (plus (Matcher.either (one Char.isAlphanum)
      (Matcher.either (char '_') (Matcher.either (char '-') (char '.'))))) (word? isLabelPart) := by
    rw [char, char, char, either_one, either_one, either_one, parts]
    exact plus_one isLabelPart
  exact takes.atomic .label text

private theorem takes_direction :
    Takes (Matcher.either (literal ['f', 'w']) (literal ['b', 'w'])) direction? := by
  intro text
  unfold direction?
  split
  · rename_i rest
    exact either_of_some (literal_append ['f', 'w'] rest)
  · rename_i rest
    have noForward : literal ['f', 'w'] ('b' :: 'w' :: rest) = none :=
      literal_of_ne (fun last same => by cases same)
    exact (either_of_none noForward).trans (literal_append ['b', 'w'] rest)
  · rename_i noForward noBackward
    exact (either_of_none (literal_of_ne noForward)).trans (literal_of_ne noBackward)

theorem direction_eq (text : List Char) :
    direction text =
      (direction? text).map (fun (_, rest) => ([⟨.direction, text, rest, []⟩], rest)) := by
  rw [direction, rule, takes_direction, Option.map_map]
  rfl

def ruleOf : Value → Rule
  | .integer _ => .integer
  | .word _ => .ident

theorem value_eq (text : List Char) :
    Grammar.value text = (value? text).map (fun (given, rest) =>
      ([⟨.value, text, rest, [⟨ruleOf given, text, rest, []⟩]⟩], rest)) := by
  rw [Grammar.value, rule, Matcher.either, integer_eq, ident_eq, value?, Option.map_or,
    Option.map_or]
  cases Integer.scan text with
  | some found => rfl
  | none => cases name? text <;> rfl

theorem time_cons (afterSign : List Char) :
    time ('@' :: afterSign) = (Integer.scan afterSign).map (fun (_, rest) =>
      ([⟨.time, '@' :: afterSign, rest, [⟨.integer, afterSign, rest, []⟩]⟩], rest)) := by
  rw [time, rule, both_of_some (char_self '@' afterSign), integer_eq, Option.map_map,
    Option.map_map]
  rfl

theorem time_of_ne (noSign : ∀ afterSign, text ≠ '@' :: afterSign) : time text = none := by
  rw [time, rule, both_of_none (char_of_ne noSign)]
  rfl

end

end Handshake.Trace.Grammar
