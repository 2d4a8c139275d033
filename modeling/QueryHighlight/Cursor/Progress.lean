import QueryHighlight.Cursor.Rule

/-!
Progress of the rules. Whatever bytes a line has, every piece of it has a byte at least, and the
cursor behind a piece stands on the same line.
-/

namespace QueryHighlight.Cursor
open Text Scan

variable {cursor : Cursor} {isMember : Char → Bool}

/-- A cursor stands on the same line as another, further on or at the same place. -/
structure Reaches (cursor after : Cursor) : Prop where
  line_eq : after.line = cursor.line
  position_le : cursor.position ≤ after.position

/-- A cursor stands further on in the same line than another. -/
structure Passes (cursor after : Cursor) : Prop where
  line_eq : after.line = cursor.line
  position_lt : cursor.position < after.position

theorem Reaches.trans {middle after : Cursor} (first : cursor.Reaches middle)
    (second : middle.Reaches after) : cursor.Reaches after :=
  ⟨second.line_eq.trans first.line_eq, Nat.le_trans first.position_le second.position_le⟩

theorem Passes.reaches {after : Cursor} (passes : cursor.Passes after) : cursor.Reaches after :=
  ⟨passes.line_eq, Nat.le_of_lt passes.position_lt⟩

theorem Passes.trans {middle after : Cursor} (first : cursor.Passes middle)
    (second : middle.Reaches after) : cursor.Passes after :=
  ⟨second.line_eq.trans first.line_eq, Nat.lt_of_lt_of_le first.position_lt second.position_le⟩

theorem reaches_advance (cursor : Cursor) (count : Nat) : cursor.Reaches (cursor.advance count) :=
  ⟨rfl, Nat.le_add_right _ _⟩

theorem passes_advance (cursor : Cursor) {count : Nat} (positive : 0 < count) :
    cursor.Passes (cursor.advance count) := ⟨rfl, Nat.lt_add_of_pos_right positive⟩

theorem passes_advanceChar (cursor : Cursor) : cursor.Passes cursor.advanceChar :=
  ⟨rfl, cursor.position_lt_advanceChar⟩

theorem exists_unread_eq (inside : cursor.atEnd = false) :
    ∃ rest, cursor.unread = cursor.current :: rest := by
  have bound : cursor.position < cursor.line.length :=
    Nat.lt_of_not_le (of_decide_eq_false inside)
  refine ⟨cursor.line.drop (cursor.position + 1), ?_⟩
  have here : cursor.line[cursor.position + 0]? = some cursor.line[cursor.position] :=
    List.getElem?_eq_getElem bound
  rw [unread, List.drop_eq_getElem_cons bound, current, peekAt, here, Option.getD_some]

/-- Behind the line there are zero bytes only. -/
theorem atEnd_eq_false (nonzero : cursor.current ≠ 0) : cursor.atEnd = false := by
  apply decide_eq_false
  intro behind
  apply nonzero
  rw [current, peekAt, Nat.add_zero, List.getElem?_eq_none behind, Option.getD_none]

/-- No class of ASCII that is tested for has the zero byte. -/
theorem ne_zero_of_isByteOf {byte : UInt8} (noNull : isMember '\x00' = false)
    (member : isByteOf isMember byte = true) : byte ≠ 0 := by
  rintro rfl
  rw [isByteOf] at member
  exact Bool.false_ne_true (noNull.symm.trans (Bool.and_eq_true_iff.mp member).2)

theorem countWhile_pos (noNull : isMember '\x00' = false)
    (member : isByteOf isMember cursor.current = true) :
    0 < cursor.countWhile 0 (isByteOf isMember) := by
  have inside := atEnd_eq_false (ne_zero_of_isByteOf noNull member)
  obtain ⟨rest, known⟩ := exists_unread_eq inside
  have here : (cursor.advance 0).unread = cursor.current :: rest := known
  rw [countWhile, here, List.takeWhile_cons, member]
  exact Nat.succ_pos _

theorem pointLength?_pos {length : Nat} (found : cursor.pointLength? = some length) :
    0 < length := by
  unfold pointLength? at found
  grind

theorem withExponent?_pos {whole length : Nat} (found : cursor.withExponent? whole = some length) :
    0 < length := by
  unfold withExponent? exponentLength? at found
  grind

theorem floatLength?_pos {length : Nat} (found : cursor.floatLength? = some length) :
    0 < length := by
  simp only [floatLength?, Option.orElse_eq_orElse, Option.orElse_eq_or, Option.or_eq_some_iff,
    Option.bind_eq_some_iff, Option.ite_none_right_eq_some] at found
  rcases found with ⟨_, _, exponent⟩ | ⟨_, ⟨_, exponent⟩ | ⟨_, point⟩⟩
  · exact withExponent?_pos exponent
  · exact withExponent?_pos exponent
  · exact pointLength?_pos point

theorem decimalLength?_pos {length : Nat} (found : cursor.decimalLength? = some length) :
    0 < length := by
  unfold decimalLength? at found
  split at found
  next => rw [← Option.some.inj found]; exact Nat.one_pos
  next =>
    obtain ⟨digit, same⟩ := Option.ite_none_right_eq_some.mp found
    rw [← Option.some.inj same]
    exact countWhile_pos rfl digit

theorem hexLength?_pos {length : Nat} (found : cursor.hexLength? = some length) : 0 < length := by
  unfold hexLength? at found
  grind

theorem pos_of_mem_integerLengths {tag : Tag} {length : Nat}
    (member : (tag, length) ∈ cursor.integerLengths) : 0 < length := by
  simp only [integerLengths, List.mem_append, List.mem_map, Option.mem_toList, Prod.mk.injEq]
    at member
  rcases member with ⟨_, decimal, -, rfl⟩ | ⟨_, hexadecimal, -, rfl⟩
  · exact decimalLength?_pos decimal
  · exact hexLength?_pos hexadecimal

theorem integer?_pos {tag : Tag} {length : Nat} (found : cursor.integer? = some (tag, length)) :
    0 < length := by
  simp only [integer?, Option.orElse_eq_orElse, Option.orElse_eq_or, Option.or_eq_some_iff]
    at found
  rcases found with long | ⟨_, plain⟩
  · obtain ⟨⟨_, whole⟩, _, same⟩ := Option.map_eq_some_iff.mp long
    rw [← (Prod.mk.inj same).2]
    exact Nat.succ_pos whole
  · exact pos_of_mem_integerLengths (List.mem_of_find?_eq_some plain)

theorem nameLength?_pos {length : Nat} (found : cursor.nameLength? = some length) : 0 < length := by
  have member := List.mem_of_find?_eq_some found
  rw [List.mem_reverse, List.mem_range'_1] at member
  exact member.1

theorem escapeLength?_pos {length : Nat} (found : cursor.escapeLength? = some length) :
    0 < length := by
  unfold escapeLength? at found
  grind

theorem passes_namePiece (cursor : Cursor) : cursor.Passes cursor.namePiece.after := by
  unfold namePiece
  split
  next found => exact cursor.passes_advance (nameLength?_pos found)
  next => exact cursor.passes_advanceChar

theorem passes_numberPiece (cursor : Cursor) : cursor.Passes cursor.numberPiece.after := by
  unfold numberPiece
  split
  next found => exact cursor.passes_advance (floatLength?_pos found)
  next =>
    split
    next found => exact cursor.passes_advance (integer?_pos found)
    next => exact cursor.passes_advanceChar

theorem passes_openerPiece (cursor : Cursor) (lead : Nat) (quote : Quote) :
    cursor.Passes (cursor.openerPiece lead quote).after := by
  unfold openerPiece
  split
  next => exact cursor.passes_advance (Nat.succ_pos lead)
  next =>
    split
    next => exact cursor.passes_namePiece
    next => exact cursor.passes_advanceChar

theorem reaches_toBlankEnd (cursor : Cursor) : cursor.Reaches cursor.toBlankEnd := by
  fun_induction toBlankEnd cursor with
  | case1 cursor place wide ih =>
    have forward : cursor.Reaches place := cursor.reaches_advance _
    exact forward.trans (place.passes_advanceChar.reaches.trans ih)
  | case2 cursor place => exact cursor.reaches_advance _

theorem passes_toBlankEnd
    (starts : isByteOf isBlank cursor.current = true ∨ cursor.atWideBlank = true) :
    cursor.Passes cursor.toBlankEnd := by
  rw [toBlankEnd]
  rcases Nat.eq_zero_or_pos (cursor.countWhile 0 (isByteOf isBlank)) with none | some
  · have still : cursor.eatWhile (isByteOf isBlank) = cursor := by rw [eatWhile, none]; rfl
    rcases starts with narrow | wide
    · exact absurd none (Nat.ne_of_gt (countWhile_pos rfl narrow))
    · simp only [still, wide, if_true]
      exact cursor.passes_advanceChar.trans (reaches_toBlankEnd _)
  · have forward : cursor.Passes (cursor.eatWhile (isByteOf isBlank)) := cursor.passes_advance some
    split
    · exact forward.trans ((passes_advanceChar _).reaches.trans (reaches_toBlankEnd _))
    · exact forward

theorem passes_toEnd (inside : cursor.atEnd = false) : cursor.Passes cursor.toEnd :=
  ⟨rfl, Nat.lt_of_lt_of_le (Nat.lt_of_not_le (of_decide_eq_false inside)) (Nat.le_max_right _ _)⟩

theorem passes_tokenPiece (cursor : Cursor) : cursor.Passes cursor.tokenPiece.after := by
  dsimp only [tokenPiece]
  -- The rules in the order in which their first bytes are tested.
  split
  · exact cursor.passes_numberPiece
  split
  · exact cursor.passes_namePiece
  split
  · exact cursor.passes_advance Nat.one_pos
  split
  · exact cursor.passes_advance Nat.one_pos
  split
  next starts => exact passes_toBlankEnd (Bool.or_eq_true_iff.mp starts)
  next => exact cursor.passes_advanceChar

theorem passes_startPiece (comments : Bool) (inside : cursor.atEnd = false) :
    cursor.Passes (cursor.startPiece comments).after := by
  unfold startPiece
  split
  · exact passes_toEnd inside
  split
  · exact cursor.passes_openerPiece 0 _
  · exact cursor.passes_openerPiece 1 _
  · exact cursor.passes_tokenPiece

theorem reaches_toDelimiter (cursor : Cursor) (quote : UInt8) :
    cursor.Reaches (cursor.toDelimiter quote).2 := by
  obtain ⟨count, moved⟩ := cursor.exists_toDelimiter quote
  exact moved ▸ cursor.reaches_advance count

theorem reaches_toContentEnd (quote : Quote) (cursor : Cursor) :
    cursor.Reaches (cursor.toContentEnd quote) := by
  fun_induction toContentEnd quote cursor with
  | case1 cursor search dead ih =>
    exact (cursor.reaches_toDelimiter quote.byte).trans ((reaches_advance _ 1).trans ih)
  | case2 cursor search => exact cursor.reaches_toDelimiter quote.byte

theorem toDelimiter_eq (inside : cursor.atEnd = false) (quote : UInt8) {count : Nat}
    (same : (cursor.unread.takeWhile fun byte => byte != quote && byte != 0x5c).length = count) :
    cursor.toDelimiter quote = ((cursor.advance count).current, cursor.advance count) := by
  rw [toDelimiter, if_neg (Bool.eq_false_iff.mp inside), ← same]

theorem passes_toContentEnd {quote : Quote} (inside : cursor.atEnd = false)
    (noQuote : cursor.current ≠ quote.byte)
    (dead : cursor.current = 0x5c → cursor.atDeadBackslash = true) :
    cursor.Passes (cursor.toContentEnd quote) := by
  obtain ⟨rest, known⟩ := exists_unread_eq inside
  have search := cursor.toDelimiter_eq inside quote.byte rfl
  rw [known, List.takeWhile_cons] at search
  rw [toContentEnd]
  by_cases backslash : cursor.current = 0x5c
  · have delimiter : ¬(cursor.current != quote.byte && cursor.current != 0x5c) = true := by
      simp [backslash]
    rw [if_neg delimiter] at search
    have still : cursor.toDelimiter quote.byte = (cursor.current, cursor) := search
    simp only [still, backslash, dead backslash, and_self, if_true]
    exact (cursor.passes_advance Nat.one_pos).trans (reaches_toContentEnd quote _)
  · have ordinary : (cursor.current != quote.byte && cursor.current != 0x5c) = true := by
      simp [noQuote, backslash]
    rw [if_pos ordinary] at search
    have forward : cursor.Passes (cursor.toDelimiter quote.byte).2 := by
      rw [search]
      exact cursor.passes_advance (Nat.succ_pos _)
    split
    · exact forward.trans ((reaches_advance _ 1).trans (reaches_toContentEnd quote _))
    · exact forward

theorem passes_stringPiece (quote : Quote) (inside : cursor.atEnd = false) :
    cursor.Passes (cursor.stringPiece quote).after := by
  unfold stringPiece
  split
  next backslash =>
    split
    next found => exact cursor.passes_advance (escapeLength?_pos found)
    next none =>
      split
      next => exact cursor.passes_advance Nat.one_pos
      next notLast =>
        have noQuote : cursor.current ≠ quote.byte := by
          rw [backslash]
          cases quote <;> decide
        apply passes_toContentEnd inside noQuote
        intro _
        rw [atDeadBackslash, none, Bool.eq_false_iff.mpr notLast]
        rfl
  next noBackslash =>
    split
    next => exact cursor.passes_advance Nat.one_pos
    next noQuote =>
      exact passes_toContentEnd inside noQuote fun backslash => absurd backslash noBackslash

end QueryHighlight.Cursor
