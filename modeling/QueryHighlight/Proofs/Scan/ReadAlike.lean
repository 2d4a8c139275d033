import Mathlib.Data.List.Find
import QueryHighlight.Proofs.Scan.Agreement
import QueryHighlight.Proofs.Scan.NumeralPatterns

/-!
Texts that agree are read alike. Numbers, names, brackets and escapes are all found by going over
the characters that answer yes to some question, so in texts that agree they are found at the same
length; in a silent place none is found. A word boundary asks for the character on its other side as
well, but that one belongs to the token.
-/

namespace QueryHighlight.Scan
open Text

/-- A reader that finds the same size in texts that agree, and behind that they agree again. -/
def ReadsAlike (reader : List Char → Option Nat) : Prop :=
  ∀ ⦃text other⦄, Agree text other →
    reader other = reader text ∧
      ∀ size ∈ reader text, Agree (text.drop size) (other.drop size)

theorem readsAlike_pointSize? : ReadsAlike pointSize? := by
  intro text other agree
  obtain ⟨whole_eq, behind⟩ := agree.run Char.isDigit (by simp [tokenTests])
  have point_asked := named_mem_tokenTests '.' (by decide)
  have point_eq := behind.head_eq point_asked
  rw [pointSize?_eq_ite, pointSize?_eq_ite]
  simp only [whole_eq, point_eq]
  by_cases point : (text.drop (runLength Char.isDigit text)).head?.any (· == '.') = true
  · have fraction := behind.tail point_asked point
    rw [List.tail_drop, List.tail_drop] at fraction
    obtain ⟨fraction_eq, after⟩ := fraction.run Char.isDigit (by simp [tokenTests])
    simp only [point, fraction_eq, if_true, true_and]
    intro size found
    rw [Option.mem_def, Option.ite_none_right_eq_some] at found
    rw [List.drop_drop, List.drop_drop] at after
    rw [← Option.some.inj found.2]
    exact after
  · simp only [if_neg point, Option.mem_def, reduceCtorEq, false_implies, implies_true, and_self]

theorem readsAlike_wholeSize? : ReadsAlike wholeSize? := by
  intro text other agree
  obtain ⟨whole_eq, behind⟩ := agree.run Char.isDigit (by simp [tokenTests])
  rw [← digitCount_eq_runLength, ← digitCount_eq_runLength] at whole_eq
  simp only [wholeSize?, whole_eq, true_and]
  intro size found
  rw [Option.mem_def, Option.ite_none_right_eq_some] at found
  rw [← Option.some.inj found.2]
  exact behind

theorem exponentSize?_of_silent {text : List Char} (silent : Silent text) :
    exponentSize? text = none := by
  cases text with
  | nil => rfl
  | cons mark rest =>
    have unmarked : isExponentMark mark = false := silent.answer (by simp [tokenTests])
    rw [exponentSize?, if_neg (Bool.eq_false_iff.mp unmarked)]

theorem Agree.exponentSize?_eq {text other : List Char} (agree : Agree text other) :
    exponentSize? other = exponentSize? text := by
  cases agree with
  | stop first second => rw [exponentSize?_of_silent first, exponentSize?_of_silent second]
  | @step mark other rest others same later =>
    have sign_asked : isSign ∈ tokenTests := by simp [tokenTests]
    have mark_eq : isExponentMark mark = isExponentMark other := same _ (by simp [tokenTests])
    have sign_eq := later.head_eq sign_asked
    have digits_eq : digitCount (others.drop (if rest.head?.any isSign then 1 else 0)) =
        digitCount (rest.drop (if rest.head?.any isSign then 1 else 0)) := by
      by_cases signed : rest.head?.any isSign = true
      · have behind := later.tail sign_asked signed
        rw [if_pos signed, List.drop_one, List.drop_one]
        exact (behind.run _ (by simp [tokenTests])).1
      · rw [if_neg signed, List.drop_zero, List.drop_zero]
        exact (later.run _ (by simp [tokenTests])).1
    simp only [exponentSize?, mark_eq, sign_eq, digits_eq]

theorem Agree.withExponent?_eq {text other : List Char} {size : Nat}
    (behind : Agree (text.drop size) (other.drop size)) :
    withExponent? other size = withExponent? text size := by
  rw [withExponent?, withExponent?, behind.exponentSize?_eq]

theorem Agree.floatSize?_eq {text other : List Char} (agree : Agree text other) :
    floatSize? other = floatSize? text := by
  obtain ⟨point_eq, behindPoint⟩ := readsAlike_pointSize? agree
  obtain ⟨whole_eq, behindWhole⟩ := readsAlike_wholeSize? agree
  have longPoint : (pointSize? text).bind (withExponent? other) =
      (pointSize? text).bind (withExponent? text) :=
    Option.bind_congr fun size found => (behindPoint size found).withExponent?_eq
  have longWhole : (wholeSize? text).bind (withExponent? other) =
      (wholeSize? text).bind (withExponent? text) :=
    Option.bind_congr fun size found => (behindWhole size found).withExponent?_eq
  rw [floatSize?_eq_or, floatSize?_eq_or, point_eq, whole_eq, longPoint, longWhole]

theorem decimalSize?_of_silent {text : List Char} (silent : Silent text) :
    decimalSize? text = none := by
  cases text with
  | nil => rfl
  | cons c rest =>
    have noDigit : c.isDigit = false := silent.answer (by simp [tokenTests])
    simp [decimalSize?, silent.ne (show '0' ∈ namedChars by decide), noDigit]

theorem readsAlike_decimalSize? : ReadsAlike decimalSize? := by
  intro text other agree
  cases agree with
  | stop first second =>
    simp [decimalSize?_of_silent first, decimalSize?_of_silent second]
  | @step c d rest others same later =>
    have zero_iff := same.eq_iff (show '0' ∈ namedChars by decide)
    have digit_eq : c.isDigit = d.isDigit := same _ (by simp [tokenTests])
    obtain ⟨digits_eq, behind⟩ := later.run Char.isDigit (by simp [tokenTests])
    rw [← digitCount_eq_runLength, ← digitCount_eq_runLength] at digits_eq
    rw [decimalSize?, decimalSize?]
    simp only [← zero_iff, ← digit_eq, digits_eq, true_and]
    intro size found
    rw [Option.mem_def] at found
    split at found
    · cases found
      exact later
    · cases (Option.ite_none_right_eq_some.mp found).2
      exact behind

theorem hexSize?_of_silent {text : List Char} (silent : Silent text) : hexSize? text = none := by
  match text, silent with
  | [], _ => rfl
  | [zero], _ => rfl
  | zero :: mark :: rest, silent =>
    simp [hexSize?, silent.ne (show '0' ∈ namedChars by decide)]

theorem hexSize?_cons_of_silent (zero : Char) {text : List Char} (silent : Silent text) :
    hexSize? (zero :: text) = none := by
  cases text with
  | nil => rfl
  | cons mark rest =>
    simp [hexSize?, silent.ne (show 'x' ∈ namedChars by decide),
      silent.ne (show 'X' ∈ namedChars by decide)]

theorem readsAlike_hexSize? : ReadsAlike hexSize? := by
  intro text other agree
  cases agree with
  | stop first second => simp [hexSize?_of_silent first, hexSize?_of_silent second]
  | @step zero zero' rest others same later =>
    cases later with
    | stop first second => simp [hexSize?_cons_of_silent _ first, hexSize?_cons_of_silent _ second]
    | @step mark mark' rest others marks later =>
      have zero_iff := same.eq_iff (show '0' ∈ namedChars by decide)
      have small_iff := marks.eq_iff (show 'x' ∈ namedChars by decide)
      have large_iff := marks.eq_iff (show 'X' ∈ namedChars by decide)
      obtain ⟨digits_eq, behind⟩ := later.run isHexDigit (by simp [tokenTests])
      have count_eq : hexDigitCount others = hexDigitCount rest := digits_eq
      rw [hexSize?, hexSize?]
      simp only [← zero_iff, ← small_iff, ← large_iff, count_eq, true_and]
      intro size found
      cases (Option.ite_none_right_eq_some.mp found).2
      rw [Nat.add_comm 2]
      exact behind

/-- The last character of a run belongs to its class. -/
theorem any_last_of_run {test : Char → Bool} {rest : List Char}
    (positive : 0 < runLength test rest) : (rest[runLength test rest - 1]?).any test = true := by
  have inside : (rest.takeWhile test).length - 1 < (rest.takeWhile test).length :=
    Nat.sub_lt positive Nat.one_pos
  have present := List.prefix_iff_getElem?.mp (List.takeWhile_prefix test) _ inside
  rw [runLength, present, Option.any_some]
  exact List.all_eq_true.mp List.all_takeWhile _ (List.getElem_mem inside)

/-- Where a word character comes last, the boundary is told by what follows. -/
theorem boundaryAt_of_isWord {rest : List Char} {size : Nat}
    (last : (rest[size - 1]?).any isWord = true) :
    boundaryAt rest size = !(rest.drop size).head?.any isWord := by
  rw [boundaryAt, last, List.head?_drop]
  cases (rest[size]?).any isWord <;> rfl

theorem any_isWord_of_decimalSize? {rest : List Char} {size : Nat}
    (known : decimalSize? rest = some size) : (rest[size - 1]?).any isWord = true := by
  cases rest with
  | nil => cases known
  | cons c rest =>
    rw [decimalSize?] at known
    split at known
    next zero =>
      cases known
      subst zero
      rfl
    next =>
      obtain ⟨digit, same⟩ := Option.ite_none_right_eq_some.mp known
      have whole : runLength Char.isDigit (c :: rest) = size := by
        rw [runLength_cons_of_mem rest digit, ← Option.some.inj same, digitCount_eq_runLength,
          Nat.add_comm]
      have positive : 0 < runLength Char.isDigit (c :: rest) := runLength_pos.mpr digit
      have last := any_last_of_run positive
      rw [whole] at last
      obtain ⟨d, present, isDigit⟩ := (Option.any_eq_true _ _).mp last
      rw [present, Option.any_some]
      exact isWord_of_isDigit d isDigit

theorem any_isWord_of_hexSize? {rest : List Char} {size : Nat}
    (known : hexSize? rest = some size) : (rest[size - 1]?).any isWord = true := by
  unfold hexSize? at known
  split at known
  next zero mark rest =>
    obtain ⟨⟨-, -, positive⟩, same⟩ := Option.ite_none_right_eq_some.mp known
    have count : hexDigitCount rest = runLength isHexDigit rest := rfl
    rw [count] at positive same
    obtain ⟨d, present, isHex⟩ := (Option.any_eq_true _ _).mp (any_last_of_run positive)
    have index : size - 1 = runLength isHexDigit rest - 1 + 1 + 1 := by
      have total := Option.some.inj same
      omega
    rw [index, List.getElem?_cons_succ, List.getElem?_cons_succ, present, Option.any_some]
    exact isWord_of_isHexDigit d isHex
  next => cases known

theorem mem_integerSizes {rest : List Char} {tag : Tag} {size : Nat} :
    (tag, size) ∈ integerSizes rest ↔
      decimalSize? rest = some size ∧ tag = .integer ∨
        hexSize? rest = some size ∧ tag = .hexInteger := by
  simp only [integerSizes, List.mem_append, List.mem_map, Option.mem_toList, Prod.mk.injEq]
  constructor
  · rintro (⟨_, known, rfl, rfl⟩ | ⟨_, known, rfl, rfl⟩)
    · exact .inl ⟨known, rfl⟩
    · exact .inr ⟨known, rfl⟩
  · rintro (⟨known, rfl⟩ | ⟨known, rfl⟩)
    · exact .inl ⟨size, known, rfl, rfl⟩
    · exact .inr ⟨size, known, rfl, rfl⟩

theorem boundaryAt_of_mem_integerSizes {rest : List Char} {tag : Tag} {size : Nat}
    (member : (tag, size) ∈ integerSizes rest) :
    boundaryAt rest size = !(rest.drop size).head?.any isWord := by
  apply boundaryAt_of_isWord
  rcases mem_integerSizes.mp member with ⟨known, -⟩ | ⟨known, -⟩
  · exact any_isWord_of_decimalSize? known
  · exact any_isWord_of_hexSize? known

/-- The suffix of a long integer is a word character itself. -/
theorem longSuffixAt_eq (rest : List Char) (size : Nat) :
    longSuffixAt rest size =
      (((rest.drop size).head?.any (· == 'l') || (rest.drop size).head?.any (· == 'L')) &&
        !(rest.drop size).tail.head?.any isWord) := by
  rw [longSuffixAt, List.tail_drop, List.head?_drop, List.head?_drop]
  cases found : rest[size]? with
  | none => rfl
  | some c =>
    simp only [Option.any_some]
    by_cases suffix : (c == 'l' || c == 'L') = true
    · have last : (rest[size + 1 - 1]?).any isWord = true := by
        rw [Nat.add_sub_cancel, found, Option.any_some]
        rcases Bool.or_eq_true_iff.mp suffix with small | large
        · rw [eq_of_beq small]; rfl
        · rw [eq_of_beq large]; rfl
      rw [boundaryAt_of_isWord last, List.head?_drop]
    · rw [Bool.eq_false_iff.mpr suffix, Bool.false_and, Bool.false_and]

namespace Agree

variable {text other : List Char} {size : Nat}

theorem longSuffixAt_eq (behind : Agree (text.drop size) (other.drop size)) :
    longSuffixAt other size = longSuffixAt text size := by
  have small := named_mem_tokenTests 'l' (by decide)
  have large := named_mem_tokenTests 'L' (by decide)
  rw [Scan.longSuffixAt_eq, Scan.longSuffixAt_eq, behind.head_eq small, behind.head_eq large]
  by_cases suffix : ((text.drop size).head?.any (· == 'l') ||
      (text.drop size).head?.any (· == 'L')) = true
  · have further : Agree (text.drop size).tail (other.drop size).tail := by
      rcases Bool.or_eq_true_iff.mp suffix with isSmall | isLarge
      · exact behind.tail small isSmall
      · exact behind.tail large isLarge
    rw [further.head_eq (by simp [tokenTests])]
  · rw [Bool.eq_false_iff.mpr suffix, Bool.false_and, Bool.false_and]

theorem integerSizes_eq (agree : Agree text other) : integerSizes other = integerSizes text := by
  rw [integerSizes, integerSizes, (readsAlike_decimalSize? agree).1, (readsAlike_hexSize? agree).1]

theorem drop_of_mem_integerSizes {tag : Tag} (agree : Agree text other)
    (member : (tag, size) ∈ integerSizes text) : Agree (text.drop size) (other.drop size) := by
  rcases mem_integerSizes.mp member with ⟨known, -⟩ | ⟨known, -⟩
  · exact (readsAlike_decimalSize? agree).2 size known
  · exact (readsAlike_hexSize? agree).2 size known

theorem integer?_eq (agree : Agree text other) : integer? other = integer? text := by
  have long : ∀ found ∈ integerSizes text,
      longSuffixAt other found.2 = longSuffixAt text found.2 :=
    fun _ member => (agree.drop_of_mem_integerSizes member).longSuffixAt_eq
  have plain : ∀ found ∈ integerSizes text,
      boundaryAt other found.2 = boundaryAt text found.2 := by
    intro _ member
    have behind := agree.drop_of_mem_integerSizes member
    have also := agree.integerSizes_eq ▸ member
    rw [boundaryAt_of_mem_integerSizes member, boundaryAt_of_mem_integerSizes also,
      behind.head_eq (by simp [tokenTests])]
  rw [integer?, integer?, agree.integerSizes_eq, List.find?_congr long, List.find?_congr plain]

theorem numeral?_eq (agree : Agree text other) : numeral? other = numeral? text := by
  rw [numeral?, numeral?, agree.floatSize?_eq, agree.integer?_eq]

end Agree

/-- A name goes no further than to a silent place, which is a boundary behind a word character. -/
theorem nameRest?_of_silent {before : Char} {text : List Char} (silent : Silent text) :
    nameRest? before text = if isWord before then some 0 else none := by
  cases text with
  | nil => rfl
  | cons c rest =>
    have noPart : isNamePart c = false := silent.answer (by simp [tokenTests])
    have noWord : isWord c = false := silent.answer (by simp [tokenTests])
    rw [nameRest?, noPart, noWord, if_neg Bool.false_ne_true]
    cases isWord before <;> rfl

theorem nameSize?_of_silent {text : List Char} (silent : Silent text) : nameSize? text = none := by
  cases text with
  | nil => rfl
  | cons c rest =>
    have noStart : isNameStart c = false := silent.answer (by simp [tokenTests])
    rw [nameSize?, noStart, if_neg Bool.false_ne_true]

theorem bracketRule_of_silent {text : List Char} (silent : Silent text) :
    bracketRule text = none := by
  cases text with
  | nil => rfl
  | cons c rest =>
    have notOpen : isOpenBracket c = false := silent.answer (by simp [tokenTests])
    have notClose : isCloseBracket c = false := silent.answer (by simp [tokenTests])
    rw [bracketRule, notOpen, notClose, if_neg Bool.false_ne_true, if_neg Bool.false_ne_true]

theorem startsWithRun_of_silent {text : List Char} (silent : Silent text) (test : Char → Bool)
    (asked : test ∈ tokenTests) (count : Nat) : startsWithRun test (count + 1) text = false := by
  cases text with
  | nil => rfl
  | cons c rest => rw [startsWithRun, silent.answer asked, Bool.false_and]

theorem escapeSize?_of_silent {text : List Char} (silent : Silent text) :
    escapeSize? text = none := by
  match text, silent with
  | [], _ => rfl
  | [c], _ => rfl
  | c :: d :: rest, silent => rw [escapeSize?, if_pos (silent.ne (by decide))]

/-- No escape is a backslash alone. -/
theorem escapeSize?_cons_of_silent (backslash : Char) {text : List Char} (silent : Silent text) :
    escapeSize? (backslash :: text) = none := by
  cases text with
  | nil => rfl
  | cons c rest =>
    have simple : isSimpleEscape c = false := silent.answer (by simp [tokenTests])
    have octal := startsWithRun_of_silent silent isOctalDigit (by simp [tokenTests]) 2
    simp [escapeSize?, simple, octal, silent.ne (show 'x' ∈ namedChars by decide),
      silent.ne (show 'U' ∈ namedChars by decide), silent.ne (show 'u' ∈ namedChars by decide)]

/-- No quote opens a literal in a silent place, and no comment starts there. -/
theorem ofChar?_of_silent {c : Char} {rest : List Char} (silent : Silent (c :: rest)) :
    Quote.ofChar? c = none := by
  cases known : Quote.ofChar? c with
  | none => rfl
  | some quote =>
    have simple : isSimpleEscape c = false := silent.answer (by simp [tokenTests])
    rw [Quote.ofChar?_eq_some.mp known] at simple
    cases quote <;> cases simple

theorem openerAt_of_silent {text : List Char} (silent : Silent text) (size : Nat) :
    openerAt size text = none := by
  cases text with
  | nil => rfl
  | cons c rest => exact openerAt_eq_none (ofChar?_of_silent silent) size rest

theorem openerRule_of_silent {text : List Char} (silent : Silent text) :
    openerRule text = none := by
  cases text with
  | nil => rfl
  | cons c rest => exact openerRule_eq_none (ofChar?_of_silent silent) (silent.ne (by decide)) rest

theorem commentRule_of_silent {text : List Char} (silent : Silent text) (comments : Bool) :
    commentRule comments text = none := by
  cases text with
  | nil => rfl
  | cons c rest => simp [commentRule, silent.ne (show '#' ∈ namedChars by decide)]

theorem numeral?_of_silent {text : List Char} (silent : Silent text) : numeral? text = none :=
  (Agree.stop silent_nil silent).numeral?_eq

namespace Agree

variable {text other : List Char}

theorem nameRest?_eq {before also : Char} (agree : Agree text other)
    (same : isWord before = isWord also) : nameRest? also other = nameRest? before text := by
  induction agree generalizing before also with
  | stop first second => rw [nameRest?_of_silent first, nameRest?_of_silent second, same]
  | @step c d rest others heads later ih =>
    have word_eq : isWord c = isWord d := heads _ (by simp [tokenTests])
    have part_eq : isNamePart c = isNamePart d := heads _ (by simp [tokenTests])
    rw [nameRest?, nameRest?, ih word_eq, same, word_eq, part_eq]

theorem nameSize?_eq (agree : Agree text other) : nameSize? other = nameSize? text := by
  cases agree with
  | stop first second =>
    rw [nameSize?_of_silent first, nameSize?_of_silent second]
  | @step c d rest others same later =>
    have start_eq : isNameStart c = isNameStart d := same _ (by simp [tokenTests])
    have word_eq : isWord c = isWord d := same _ (by simp [tokenTests])
    rw [nameSize?, nameSize?, later.nameRest?_eq word_eq, start_eq]

theorem bracketRule_eq (agree : Agree text other) : bracketRule other = bracketRule text := by
  cases agree with
  | stop first second =>
    rw [bracketRule_of_silent first, bracketRule_of_silent second]
  | @step c d rest others same later =>
    have open_eq : isOpenBracket c = isOpenBracket d := same _ (by simp [tokenTests])
    have close_eq : isCloseBracket c = isCloseBracket d := same _ (by simp [tokenTests])
    rw [bracketRule, bracketRule, open_eq, close_eq]

theorem startsWithRun_eq (agree : Agree text other) (test : Char → Bool)
    (asked : test ∈ tokenTests) (count : Nat) :
    startsWithRun test count other = startsWithRun test count text := by
  induction count generalizing text other with
  | zero => rfl
  | succ count ih =>
    cases agree with
    | stop first second =>
      rw [startsWithRun_of_silent first test asked, startsWithRun_of_silent second test asked]
    | step same later => rw [startsWithRun, startsWithRun, same test asked, ih later]

theorem escapeSize?_eq (agree : Agree text other) : escapeSize? other = escapeSize? text := by
  cases agree with
  | stop first second => rw [escapeSize?_of_silent first, escapeSize?_of_silent second]
  | @step c d rest others same later =>
    cases later with
    | stop first second =>
      rw [escapeSize?_cons_of_silent c first, escapeSize?_cons_of_silent d second]
    | @step e f rest others behind later =>
      have backslash_iff := same.eq_iff (show '\\' ∈ namedChars by decide)
      have simple_eq : isSimpleEscape e = isSimpleEscape f := behind _ (by simp [tokenTests])
      have hex_asked : isHexDigit ∈ tokenTests := by simp [tokenTests]
      have octal_eq := (Agree.step behind later).startsWithRun_eq isOctalDigit
        (by simp [tokenTests]) 3
      have small_iff := behind.eq_iff (show 'x' ∈ namedChars by decide)
      have long_iff := behind.eq_iff (show 'U' ∈ namedChars by decide)
      have short_iff := behind.eq_iff (show 'u' ∈ namedChars by decide)
      rw [escapeSize?, escapeSize?]
      simp only [ne_eq, ← backslash_iff, ← simple_eq, ← small_iff, ← long_iff, ← short_iff,
        octal_eq, later.startsWithRun_eq isHexDigit hex_asked]

end Agree

/-- Rules that claim corresponding matches one by one find corresponding first matches. -/
theorem findSome?_rules_eq_map {rules : List Rule} {text other : List Char} {f : Match → Match}
    (each : ∀ rule ∈ rules, rule other = (rule text).map f) :
    rules.findSome? (fun rule => rule other) = (rules.findSome? fun rule => rule text).map f := by
  induction rules with
  | nil => rfl
  | cons rule rules ih =>
    obtain ⟨first, later⟩ := List.forall_mem_cons.mp each
    rw [List.findSome?_cons, List.findSome?_cons, first, ih later]
    cases rule text <;> rfl

end QueryHighlight.Scan
