import QueryHighlight.Proofs.Cursor.Ascii
import QueryHighlight.Proofs.Scan.MatchSize

/-!
Numbers at a place in the bytes of a line. All that the rules for numbers step over is of ASCII, so
each of them comes to the length that it would come to among the characters, and it asks about the
same word boundaries.
-/

namespace QueryHighlight
open Text Scan

theorem asciiOnly_named {name : Char} (named : name ∈ namedChars) : AsciiOnly (· == name) :=
  asciiOnly_of_mem_tokenTests _ (named_mem_tokenTests name named)

theorem asciiOnly_isHexDigit : AsciiOnly isHexDigit :=
  asciiOnly_of_mem_tokenTests _ (by simp [tokenTests])

theorem asciiOnly_isExponentMark : AsciiOnly isExponentMark :=
  asciiOnly_of_mem_tokenTests _ (by simp [tokenTests])

theorem asciiOnly_isSign : AsciiOnly isSign := asciiOnly_of_mem_tokenTests _ (by simp [tokenTests])

theorem asciiOnly_longMark : AsciiOnly fun c => c == 'l' || c == 'L' :=
  (asciiOnly_named (by decide)).or (asciiOnly_named (by decide))

namespace AsciiAhead

variable {c : Char} {rest text : List Char} {count size total : Nat} {tag : Tag}

theorem cons (ascii : c.val.toNat ≤ 0x7f) (later : AsciiAhead count rest) :
    AsciiAhead (count + 1) (c :: rest) where
  present := Nat.succ_le_succ later.present
  ascii := by
    rw [List.take_succ_cons]
    exact List.forall_mem_cons.mpr ⟨ascii, later.ascii⟩

theorem digits (text : List Char) : AsciiAhead (Scan.digitCount text) text :=
  .run asciiOnly_isDigit text

theorem of_pointSize? (found : pointSize? text = some size) : AsciiAhead size text := by
  dsimp only [pointSize?] at found
  split at found
  next after point =>
    cases (Option.ite_none_right_eq_some.mp found).2
    have fraction : AsciiAhead (Scan.digitCount after + 1) (text.drop (Scan.digitCount text)) := by
      rw [point]
      exact (digits after).cons (by decide)
    rw [Nat.add_right_comm]
    exact (digits text).add fraction
  next => cases found

theorem of_wholeSize? (found : wholeSize? text = some size) : AsciiAhead size text := by
  cases (Option.ite_none_right_eq_some.mp found).2
  exact digits text

theorem of_exponentSize? (found : exponentSize? text = some size) : AsciiAhead size text := by
  cases text with
  | nil => cases found
  | cons mark rest =>
    obtain ⟨isMark, known⟩ := Option.ite_none_right_eq_some.mp found
    cases (Option.ite_none_right_eq_some.mp known).2
    have sign : AsciiAhead (if rest.head?.any isSign then 1 else 0) rest := by
      split
      next signed => exact .one asciiOnly_isSign signed
      next => exact .zero rest
    rw [Nat.add_assoc, Nat.add_comm]
    exact (sign.add (digits _)).cons (asciiOnly_isExponentMark mark isMark).2

theorem of_withExponent? (whole : AsciiAhead size text)
    (found : withExponent? text size = some total) : AsciiAhead total text := by
  obtain ⟨further, exponent, same⟩ := Option.map_eq_some_iff.mp found
  cases same
  exact whole.add (of_exponentSize? exponent)

theorem of_floatSize? (found : floatSize? text = some size) : AsciiAhead size text := by
  rw [floatSize?_eq_or, Option.or_eq_some_iff, Option.or_eq_some_iff] at found
  rcases found with longPoint | ⟨-, longWhole | ⟨-, point⟩⟩
  · obtain ⟨point, known, exponent⟩ := Option.bind_eq_some_iff.mp longPoint
    exact of_withExponent? (of_pointSize? known) exponent
  · obtain ⟨whole, known, exponent⟩ := Option.bind_eq_some_iff.mp longWhole
    exact of_withExponent? (of_wholeSize? known) exponent
  · exact of_pointSize? point

theorem of_decimalSize? (found : decimalSize? text = some size) : AsciiAhead size text := by
  cases text with
  | nil => cases found
  | cons c rest =>
    rw [decimalSize?] at found
    split at found
    next zero =>
      cases found
      exact .one (asciiOnly_eq '0' (by decide)) (beq_iff_eq.mpr zero)
    next =>
      obtain ⟨digit, same⟩ := Option.ite_none_right_eq_some.mp found
      cases same
      exact (digits rest).cons (asciiOnly_isDigit c digit).2

theorem of_hexSize? (found : hexSize? text = some size) : AsciiAhead size text := by
  unfold hexSize? at found
  split at found
  next zero mark rest =>
    obtain ⟨⟨rfl, isMark, -⟩, same⟩ := Option.ite_none_right_eq_some.mp found
    cases same
    have mark_le : mark.val.toNat ≤ 0x7f := by rcases isMark with rfl | rfl <;> decide
    rw [Nat.add_comm]
    exact ((run asciiOnly_isHexDigit rest).cons mark_le).cons (by decide)
  next => cases found

theorem of_mem_integerSizes (member : (tag, size) ∈ integerSizes text) : AsciiAhead size text := by
  simp only [integerSizes, List.mem_append, List.mem_map, Option.mem_toList, Prod.mk.injEq]
    at member
  rcases member with ⟨_, decimal, -, rfl⟩ | ⟨_, hexadecimal, -, rfl⟩
  · exact of_decimalSize? decimal
  · exact of_hexSize? hexadecimal

theorem of_longSuffixAt (whole : AsciiAhead size text) (suffix : longSuffixAt text size = true) :
    AsciiAhead (size + 1) text := by
  have mark := (Bool.and_eq_true_iff.mp suffix).1
  rw [← List.head?_drop] at mark
  exact whole.add (.one asciiOnly_longMark mark)

theorem of_integer? (found : Scan.integer? text = some (tag, size)) : AsciiAhead size text := by
  rw [Scan.integer?, Option.orElse_eq_orElse, Option.orElse_eq_or, Option.or_eq_some_iff] at found
  rcases found with long | ⟨-, plain⟩
  · obtain ⟨⟨_, whole⟩, known, same⟩ := Option.map_eq_some_iff.mp long
    cases same
    have digits : AsciiAhead whole text := of_mem_integerSizes (List.mem_of_find?_eq_some known)
    have suffix := List.find?_some known
    exact digits.of_longSuffixAt suffix
  · exact of_mem_integerSizes (List.mem_of_find?_eq_some plain)

end AsciiAhead

namespace Cursor.Parts

variable {cursor : Cursor} {before after : List Char} {offset : Nat}

theorem digitCount_eq (parts : cursor.Parts before after) (ascii : AsciiAhead offset after) :
    cursor.digitCount offset = Scan.digitCount (after.drop offset) :=
  parts.countWhile_eq ascii asciiOnly_isDigit

theorem digitCount_zero (parts : cursor.Parts before after) :
    cursor.digitCount 0 = Scan.digitCount after := parts.digitCount_eq (.zero after)

theorem pointLength?_eq (parts : cursor.Parts before after) :
    cursor.pointLength? = pointSize? after := by
  have whole : AsciiAhead (Scan.digitCount after) after := .digits after
  have point : AsciiOnly (· == '.') := asciiOnly_named (by decide)
  dsimp only [pointLength?, pointSize?]
  rw [parts.digitCount_zero, parts.isByteOf_peekAt whole point, ← List.head?_drop]
  cases behind : after.drop (Scan.digitCount after) with
  | nil => rfl
  | cons c rest =>
    by_cases isPoint : c = '.'
    · subst isPoint
      have marked : AsciiAhead (Scan.digitCount after + 1) after := whole.succ behind (by decide)
      have fraction : cursor.digitCount (Scan.digitCount after + 1) = Scan.digitCount rest := by
        rw [parts.digitCount_eq marked, drop_succ_of_drop behind]
      rw [fraction]
      grind
    · have other : (some c).any (· == '.') = false := beq_false_of_ne isPoint
      rw [List.head?_cons, other, if_neg Bool.false_ne_true]
      split
      next rest same => exact absurd (List.cons.inj same).1 isPoint
      next => rfl

theorem exponentLength?_eq (parts : cursor.Parts before after) (ascii : AsciiAhead offset after) :
    cursor.exponentLength? offset = exponentSize? (after.drop offset) := by
  dsimp only [exponentLength?]
  rw [parts.isByteOf_peekAt ascii asciiOnly_isExponentMark, ← List.head?_drop]
  cases behind : after.drop offset with
  | nil => rfl
  | cons mark rest =>
    rw [exponentSize?, List.head?_cons, Option.any_some]
    split
    next isMark =>
      have marked : AsciiAhead (offset + 1) after :=
        ascii.succ behind (asciiOnly_isExponentMark mark isMark).2
      have rest_eq : after.drop (offset + 1) = rest := drop_succ_of_drop behind
      rw [parts.isByteOf_peekAt marked asciiOnly_isSign, ← List.head?_drop, rest_eq]
      have signed : AsciiAhead (offset + 1 + if rest.head?.any isSign then 1 else 0) after := by
        apply marked.add
        rw [rest_eq]
        split
        next sign => exact .one asciiOnly_isSign sign
        next => exact .zero rest
      rw [parts.digitCount_eq signed, ← List.drop_drop, rest_eq]
    next => rfl

theorem withExponent?_eq (parts : cursor.Parts before after) (ascii : AsciiAhead offset after) :
    cursor.withExponent? offset = Scan.withExponent? after offset := by
  rw [Cursor.withExponent?, parts.exponentLength?_eq ascii, Scan.withExponent?]

theorem floatLength?_eq (parts : cursor.Parts before after) :
    cursor.floatLength? = floatSize? after := by
  have exponents : (pointSize? after).bind cursor.withExponent? =
      (pointSize? after).bind (Scan.withExponent? after) := by
    cases found : pointSize? after with
    | none => rfl
    | some size => exact parts.withExponent?_eq (.of_pointSize? found)
  have whole : (if 0 < Scan.digitCount after then
      cursor.withExponent? (Scan.digitCount after) else none) =
      (wholeSize? after).bind (Scan.withExponent? after) := by
    dsimp only [wholeSize?]
    split
    next => exact parts.withExponent?_eq (.digits after)
    next => rfl
  dsimp only [floatLength?, floatSize?]
  rw [parts.digitCount_zero, parts.pointLength?_eq, exponents, whole]

theorem decimalLength?_eq (parts : cursor.Parts before after) :
    cursor.decimalLength? = decimalSize? after := by
  have zero : AsciiOnly (· == '0') := asciiOnly_named (by decide)
  rw [decimalLength?, parts.isByteOf_current zero, parts.isByteOf_current asciiOnly_isDigit,
    parts.digitCount_zero]
  cases after with
  | nil => rfl
  | cons c rest =>
    rw [decimalSize?, List.head?_cons, Option.any_some, Option.any_some]
    by_cases digit : c.isDigit = true
    · have run : Scan.digitCount (c :: rest) = Scan.digitCount rest + 1 := by
        rw [Scan.digitCount, List.takeWhile_cons, if_pos digit]
        rfl
      rw [run, if_pos digit]
      simp only [beq_iff_eq]
    · rw [if_neg digit, if_neg digit]
      simp only [beq_iff_eq]

theorem hexLength?_eq (parts : cursor.Parts before after) :
    cursor.hexLength? = hexSize? after := by
  have zero : AsciiOnly (· == '0') := asciiOnly_named (by decide)
  have lower : AsciiOnly (· == 'x') := asciiOnly_named (by decide)
  have upper : AsciiOnly (· == 'X') := asciiOnly_named (by decide)
  dsimp only [hexLength?]
  rw [parts.isByteOf_current zero]
  rcases after with _ | ⟨first, others⟩
  · rfl
  rw [List.head?_cons, Option.any_some]
  by_cases isZero : first = '0'
  · subst isZero
    have one : AsciiAhead 1 ('0' :: others) := .one zero rfl
    rw [peek, parts.isByteOf_peekAt one lower, parts.isByteOf_peekAt one upper]
    rcases others with _ | ⟨mark, rest⟩
    · rfl
    by_cases isMark : mark = 'x' ∨ mark = 'X'
    · have two : AsciiAhead 2 ('0' :: mark :: rest) := by
        have ascii : mark.val.toNat ≤ 0x7f := by rcases isMark with rfl | rfl <;> decide
        exact ((AsciiAhead.zero rest).cons ascii).cons (by decide)
      have digits : cursor.countWhile 2 (isByteOf isHexDigit) = hexDigitCount rest :=
        parts.countWhile_eq two asciiOnly_isHexDigit
      simp [hexSize?, digits, isMark]
    · simp [hexSize?, isMark]
  · rcases others with _ | ⟨mark, rest⟩ <;> simp [hexSize?, isZero]

theorem integerLengths_eq (parts : cursor.Parts before after) :
    cursor.integerLengths = integerSizes after := by
  rw [integerLengths, parts.decimalLength?_eq, parts.hexLength?_eq, integerSizes]

theorem longSuffixAt_eq (parts : cursor.Parts before after) (ascii : AsciiAhead offset after) :
    cursor.longSuffixAt offset = Scan.longSuffixAt after offset := by
  have mark : (isByteOf (· == 'l') (cursor.peekAt offset) ||
      isByteOf (· == 'L') (cursor.peekAt offset)) =
      (after[offset]?).any fun c => c == 'l' || c == 'L' := by
    rw [parts.isByteOf_peekAt ascii (asciiOnly_named (by decide)),
      parts.isByteOf_peekAt ascii (asciiOnly_named (by decide))]
    cases after[offset]? <;> rfl
  dsimp only [Cursor.longSuffixAt, Scan.longSuffixAt]
  rw [mark]
  by_cases marked : ((after[offset]?).any fun c => c == 'l' || c == 'L') = true
  · have further : AsciiAhead (offset + 1) after := by
      rw [← List.head?_drop] at marked
      exact ascii.add (.one asciiOnly_longMark marked)
    rw [parts.boundaryAt_eq further (Nat.succ_pos offset)]
  · rw [Bool.eq_false_iff.mpr marked, Bool.false_and, Bool.false_and]

theorem integer?_eq (parts : cursor.Parts before after) :
    cursor.integer? = Scan.integer? after := by
  unfold Cursor.integer? Scan.integer?
  simp only [parts.integerLengths_eq, Option.orElse_eq_orElse, Option.orElse_eq_or]
  refine congrArg₂ Option.or (congrArg (Option.map _) ?_) ?_
  · apply List.find?_congr
    rintro ⟨tag, size⟩ member
    exact parts.longSuffixAt_eq (.of_mem_integerSizes member)
  · apply List.find?_congr
    rintro ⟨tag, size⟩ member
    exact parts.boundaryAt_eq (.of_mem_integerSizes member) (fits_of_mem_integerSizes member).1

end Cursor.Parts

end QueryHighlight
