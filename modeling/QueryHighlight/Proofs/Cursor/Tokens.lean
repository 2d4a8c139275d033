import QueryHighlight.Proofs.Cursor.FirstCharacter
import QueryHighlight.Proofs.Cursor.Terminators

/-!
Tokens at a place in the bytes of a line. The first byte decides there which rule is tried; among
the characters all rules are tried in order. Both come to the same, since what the first byte rules
out starts with another character, and what it singles out no later rule could start with.
-/

namespace QueryHighlight
open Text Scan

namespace Cursor

theorem isByteOf_isBlank : isByteOf isBlank = isByteOf isNarrowBlank := by
  have every : ∀ n < 256, isByteOf isBlank (UInt8.ofNat n) =
      isByteOf isNarrowBlank (UInt8.ofNat n) := by
    decide +kernel
  funext byte
  have known := every byte.toNat byte.toNat_lt
  rwa [UInt8.ofNat_toNat] at known

/-- A piece is what a rule claims of the characters at the place: it has the tag and the state of
the match, and the cursor behind it stands behind the characters that the match takes. -/
structure Piece.Renders (piece : Piece) (found : Match) (before after : List Char) : Prop where
  tag_eq : piece.tag = found.tag
  state_eq : piece.state = found.state
  parts : piece.after.Parts (before ++ after.take found.size) (after.drop found.size)

namespace Parts

variable {cursor : Cursor} {before after rest : List Char} {c : Char} {offset : Nat} {quote : Quote}

theorem renders_advance (parts : cursor.Parts before after) {size : Nat}
    (ascii : AsciiAhead size after) (tag : Tag) (state : State) :
    Piece.Renders { tag, after := cursor.advance size, state } { tag, size, state } before after :=
  ⟨rfl, rfl, parts.advance_of_ascii ascii⟩

theorem renders_invalidPiece (parts : cursor.Parts before (c :: rest)) :
    cursor.invalidPiece.Renders { tag := .invalid, size := 1 } before (c :: rest) :=
  ⟨rfl, rfl, parts.advanceChar⟩

theorem renders_numberPiece (parts : cursor.Parts before (c :: rest)) :
    cursor.numberPiece.Renders ((numeralRule (c :: rest)).getD { tag := .invalid, size := 1 })
      before (c :: rest) := by
  rw [numberPiece, parts.floatLength?_eq, parts.integer?_eq, numeralRule, numeral?,
    Option.orElse_eq_orElse, Option.orElse_eq_or]
  cases float : floatSize? (c :: rest) with
  | some size => exact parts.renders_advance (.of_floatSize? float) .float .start
  | none =>
    cases whole : Scan.integer? (c :: rest) with
    | some found => exact parts.renders_advance (.of_integer? whole) found.1 .start
    | none => exact parts.renders_invalidPiece

theorem nameLength?_eq (parts : cursor.Parts before (c :: rest)) (starts : isNameStart c = true) :
    cursor.nameLength? = nameSize? (c :: rest) := by
  have part : isNamePart c = true := isNamePart_of_isNameStart starts
  have run : cursor.countWhile 0 (isByteOf isNamePart) =
      (rest.takeWhile isNamePart).length + 1 := by
    rw [parts.countWhile_eq (.zero _) asciiOnly_isNamePart, List.drop_zero, List.takeWhile_cons,
      if_pos part, List.length_cons]
  have ascii : AsciiAhead ((rest.takeWhile isNamePart).length + 1) (c :: rest) :=
    (AsciiAhead.run asciiOnly_isNamePart rest).cons (asciiOnly_isNamePart c part).2
  have boundaries :
      (List.range' 1 ((rest.takeWhile isNamePart).length + 1)).reverse.find? cursor.boundaryAt =
        (List.range' 1 ((rest.takeWhile isNamePart).length + 1)).reverse.find?
          (Scan.boundaryAt (c :: rest)) := by
    apply List.find?_congr
    intro length member
    rw [List.mem_reverse, List.mem_range'_1] at member
    exact parts.boundaryAt_eq (ascii.of_le (by omega)) member.1
  rw [nameLength?, run, boundaries, ← nameRest?_eq_find?, nameSize?, if_pos starts]
  simp only [Nat.add_comm]

theorem renders_namePiece (parts : cursor.Parts before (c :: rest))
    (starts : isNameStart c = true) :
    cursor.namePiece.Renders ((nameRule (c :: rest)).getD { tag := .invalid, size := 1 })
      before (c :: rest) := by
  rw [namePiece, parts.nameLength?_eq starts, nameRule]
  cases name : nameSize? (c :: rest) with
  | some size => exact parts.renders_advance (.of_nameSize? name) .identifier .start
  | none => exact parts.renders_invalidPiece

/-! Openers -/

/-- A byte of ASCII is read only where its own character stands. -/
theorem current_eq_iff (parts : cursor.Parts before after) {d : Char} {byte : UInt8}
    (ascii : 0 < d.val.toNat ∧ d.val.toNat ≤ 0x7f) (same : byte = UInt8.ofNat d.val.toNat) :
    cursor.current = byte ↔ after.head? = some d := by
  rw [current_eq_headD_unread, parts.unread_eq]
  cases after with
  | nil =>
    have value : byte.toNat = d.val.toNat := by
      rw [same, UInt8.toNat_ofNat']
      omega
    constructor
    · rintro rfl
      exact absurd ascii.1 (Nat.not_lt.mpr (Nat.le_of_eq value.symm))
    · exact nofun
  | cons c rest =>
    obtain ⟨lead, others, encoded, -⟩ := exists_encoding c
    rw [bytes_cons, encoded, List.cons_append, List.headD_cons, List.head?_cons, Option.some.injEq]
    constructor
    · rintro rfl
      apply eq_of_mem_utf8EncodeChar ascii.2 same
      rw [encoded]
      exact List.mem_cons_self
    · rintro rfl
      rw [utf8EncodeChar_ascii ascii.2] at encoded
      rw [same, (List.cons.inj encoded).1]

theorem peekAt_eq_iff (parts : cursor.Parts before after) (ahead : AsciiAhead offset after)
    {d : Char} {byte : UInt8} (ascii : 0 < d.val.toNat ∧ d.val.toNat ≤ 0x7f)
    (same : byte = UInt8.ofNat d.val.toNat) :
    cursor.peekAt offset = byte ↔ after[offset]? = some d := by
  rw [← List.head?_drop]
  exact (parts.advance_of_ascii ahead).current_eq_iff ascii same

theorem quoteAt?_eq (parts : cursor.Parts before after) (ascii : AsciiAhead offset after) :
    cursor.quoteAt? offset = (after[offset]?).bind Quote.ofChar? := by
  have double : cursor.peekAt offset = Quote.double.byte ↔ after[offset]? = some '"' :=
    parts.peekAt_eq_iff ascii (by decide) rfl
  have single : cursor.peekAt offset = Quote.single.byte ↔ after[offset]? = some '\'' :=
    parts.peekAt_eq_iff ascii (by decide) rfl
  simp only [quoteAt?, double, single]
  cases after[offset]? with
  | none => rfl
  | some c => simp only [Option.some.injEq, Option.bind_some, Quote.ofChar?]

theorem hasCharAt_eq (parts : cursor.Parts before after) (ascii : AsciiAhead offset after) :
    cursor.hasCharAt offset = (after[offset]?).any fun c => !isTerminator c := by
  have moved := parts.advance_of_ascii ascii
  have atEnd := moved.atEnd_iff
  rw [hasCharAt, moved.unread_eq, ← List.head?_drop]
  cases behind : after.drop offset with
  | nil => rw [atEnd.mpr behind]; rfl
  | cons c rest =>
    have inside : (cursor.advance offset).atEnd = false := by
      rw [Bool.eq_false_iff, Ne, atEnd, behind]
      exact List.cons_ne_nil c rest
    rw [inside, bytes_cons, startsTerminator_utf8EncodeChar_append]
    rfl

/-- A quote that opens nothing is an error. -/
theorem renders_openerPiece_zero (parts : cursor.Parts before (quote.char :: rest)) :
    (cursor.openerPiece 0 quote).Renders
      ((openerRule (quote.char :: rest)).getD { tag := .invalid, size := 1 })
      before (quote.char :: rest) := by
  have ascii : quote.char.val.toNat ≤ 0x7f := by cases quote <;> decide
  have one : AsciiAhead 1 (quote.char :: rest) := (AsciiAhead.zero rest).cons ascii
  have opener : openerRule (quote.char :: rest) = openerAt 1 (quote.char :: rest) := by
    cases quote <;> rfl
  have next : (quote.char :: rest)[1]? = rest.head? := List.head?_eq_getElem?.symm
  rw [openerPiece, parts.hasCharAt_eq one, next, opener, openerAt_char]
  split
  next => exact parts.renders_advance one .stringOpen (.string quote)
  next => exact parts.renders_invalidPiece

/-- A letter in front of a quote that opens nothing starts a name. -/
theorem renders_openerPiece_one (parts : cursor.Parts before ('i' :: quote.char :: rest)) :
    (cursor.openerPiece 1 quote).Renders
      (((openerRule ('i' :: quote.char :: rest)).or
        (nameRule ('i' :: quote.char :: rest))).getD { tag := .invalid, size := 1 })
      before ('i' :: quote.char :: rest) := by
  have ascii : quote.char.val.toNat ≤ 0x7f := by cases quote <;> decide
  have two : AsciiAhead 2 ('i' :: quote.char :: rest) :=
    ((AsciiAhead.zero rest).cons ascii).cons (by decide)
  have opener : openerRule ('i' :: quote.char :: rest) = openerAt 2 (quote.char :: rest) := rfl
  have next : ('i' :: quote.char :: rest)[2]? = rest.head? := List.head?_eq_getElem?.symm
  rw [openerPiece, parts.hasCharAt_eq two, next, opener, openerAt_char]
  split
  next => exact parts.renders_advance two .stringOpen (.string quote)
  next => exact parts.renders_namePiece rfl

/-! White space -/

theorem high_current_iff (parts : cursor.Parts before (c :: rest)) :
    0x80 ≤ cursor.current ↔ 0x7f < c.val.toNat := by
  obtain ⟨lead, others, encoded, -⟩ := exists_encoding c
  rw [current_eq_headD_unread, parts.unread_eq, bytes_cons, encoded, List.cons_append,
    List.headD_cons, UInt8.le_iff_toNat_le]
  constructor
  · intro high
    apply Nat.lt_of_not_le
    intro ascii
    rw [utf8EncodeChar_ascii ascii] at encoded
    rw [← (List.cons.inj encoded).1, UInt8.toNat_ofNat'] at high
    have bound : 0x80 ≤ c.val.toNat % 2 ^ 8 := high
    omega
  · intro wide
    apply le_toNat_of_mem_utf8EncodeChar wide
    rw [encoded]
    exact List.mem_cons_self

theorem atWideBlank_eq (parts : cursor.Parts before after) :
    cursor.atWideBlank = after.head?.any fun c => 0x7f < c.val.toNat && isBlank c := by
  rw [atWideBlank, parts.currentChar?_eq]
  cases after with
  | nil => exact Bool.and_false _
  | cons c rest =>
    rw [List.head?_cons, Option.any_some, Option.any_some,
      decide_eq_decide.mpr parts.high_current_iff]

/-- The first byte is tested before the character is decoded. -/
theorem startsBlank_eq (parts : cursor.Parts before after) :
    (isByteOf isBlank cursor.current || cursor.atWideBlank) = after.head?.any isBlank := by
  rw [isByteOf_isBlank, parts.isByteOf_current asciiOnly_isNarrowBlank, parts.atWideBlank_eq]
  cases after with
  | nil => rfl
  | cons c rest =>
    rw [List.head?_cons, Option.any_some, Option.any_some, Option.any_some, isNarrowBlank]
    by_cases wide : 0x7f < c.val.toNat
    · rw [decide_eq_true wide, decide_eq_false (Nat.not_le.mpr wide), Bool.false_and, Bool.false_or,
        Bool.true_and]
    · rw [decide_eq_false wide, decide_eq_true (Nat.not_lt.mp wide), Bool.false_and, Bool.or_false,
        Bool.true_and]

theorem eatWhile_isBlank (parts : cursor.Parts before after) :
    (cursor.eatWhile (isByteOf isBlank)).Parts (before ++ after.takeWhile isNarrowBlank)
      (after.dropWhile isNarrowBlank) := by
  have moved := parts.advance_of_ascii (.run asciiOnly_isNarrowBlank after)
  have counted : cursor.countWhile 0 (isByteOf isBlank) =
      (after.takeWhile isNarrowBlank).length := by
    rw [isByteOf_isBlank, parts.countWhile_eq (.zero after) asciiOnly_isNarrowBlank, List.drop_zero]
  rwa [take_length_takeWhile, drop_length_takeWhile, ← counted] at moved

end Parts

/-- All blanks are passed, whatever byte each of them starts with. -/
theorem parts_toBlankEnd (cursor : Cursor) : ∀ before after, cursor.Parts before after →
    cursor.toBlankEnd.Parts (before ++ after.takeWhile isBlank) (after.dropWhile isBlank) := by
  fun_induction toBlankEnd cursor with
  | case1 cursor place wide ih =>
    intro before after parts
    have stopped : place.Parts _ _ := parts.eatWhile_isBlank
    obtain ⟨taken, left⟩ := takeWhile_of_imp isBlank_of_isNarrowBlank after
    rw [stopped.atWideBlank_eq] at wide
    rw [taken, left]
    cases behind : after.dropWhile isNarrowBlank with
    | nil =>
      rw [behind] at wide
      cases wide
    | cons c rest =>
      rw [behind] at wide stopped
      have blank : isBlank c = true := (Bool.and_eq_true_iff.mp wide).2
      have passed := ih _ _ stopped.advanceChar
      rw [List.append_assoc, List.append_assoc, List.singleton_append] at passed
      rwa [List.takeWhile_cons_of_pos blank, List.dropWhile_cons_of_pos blank]
  | case2 cursor place narrow =>
    intro before after parts
    have stopped : place.Parts _ _ := parts.eatWhile_isBlank
    obtain ⟨taken, left⟩ := takeWhile_of_imp isBlank_of_isNarrowBlank after
    have starts := stopped.startsBlank_eq
    rw [Bool.eq_false_iff.mpr narrow, Bool.or_false, isByteOf_isBlank,
      stopped.isByteOf_current asciiOnly_isNarrowBlank] at starts
    rw [taken, left]
    cases behind : after.dropWhile isNarrowBlank with
    | nil =>
      rw [behind] at stopped
      rwa [List.takeWhile_nil, List.append_nil]
    | cons c rest =>
      -- A run of narrow blanks is not followed by another one.
      have notNarrow := List.head?_dropWhile_not isNarrowBlank after
      rw [behind] at notNarrow starts stopped
      have notBlank : ¬isBlank c = true := Bool.eq_false_iff.mp (starts.symm.trans notNarrow)
      rwa [List.takeWhile_cons_of_neg notBlank, List.dropWhile_cons_of_neg notBlank,
        List.append_nil]

namespace Parts

variable {cursor : Cursor} {before after rest : List Char} {c : Char}

theorem renders_blankPiece (parts : cursor.Parts before after) :
    cursor.blankPiece.Renders
      { tag := .whitespace, size := (after.takeWhile isBlank).length } before after := by
  refine ⟨rfl, rfl, ?_⟩
  rw [take_length_takeWhile, drop_length_takeWhile]
  exact cursor.parts_toBlankEnd before after parts

/-- The tests of the first byte are tests of the first character. -/
theorem tokenPiece_eq (parts : cursor.Parts before (c :: rest)) :
    cursor.tokenPiece =
      if (c.isDigit || c == '.') = true then cursor.numberPiece
      else if isNameStart c = true then cursor.namePiece
      else if isOpenBracket c = true then { tag := .bracketOpen, after := cursor.advance 1 }
      else if isCloseBracket c = true then { tag := .bracketClose, after := cursor.advance 1 }
      else if isBlank c = true then cursor.blankPiece
      else cursor.invalidPiece := by
  have digit : isByteOf Char.isDigit cursor.current = c.isDigit :=
    parts.isByteOf_current asciiOnly_isDigit
  have point : isByteOf (· == '.') cursor.current = (c == '.') :=
    parts.isByteOf_current (asciiOnly_named (by decide))
  have nameStart : isByteOf isNameStart cursor.current = isNameStart c :=
    parts.isByteOf_current asciiOnly_isNameStart
  have openBracket : isByteOf isOpenBracket cursor.current = isOpenBracket c :=
    parts.isByteOf_current asciiOnly_isOpenBracket
  have closeBracket : isByteOf isCloseBracket cursor.current = isCloseBracket c :=
    parts.isByteOf_current asciiOnly_isCloseBracket
  have blank : (isByteOf isBlank cursor.current || cursor.atWideBlank) = isBlank c :=
    parts.startsBlank_eq
  dsimp only [tokenPiece]
  rw [digit, point, nameStart, openBracket, closeBracket, blank]

/-- Where no comment and no literal starts, the first character singles out the only rule that can
match there. -/
theorem renders_tokenPiece (parts : cursor.Parts before (c :: rest)) :
    cursor.tokenPiece.Renders
      (((numeralRule (c :: rest)).or ((nameRule (c :: rest)).or
          ((bracketRule (c :: rest)).or (blankRule (c :: rest))))).getD
        { tag := .invalid, size := 1 })
      before (c :: rest) := by
  rw [parts.tokenPiece_eq]
  split
  next isNumber =>
    obtain ⟨noName, noBracket, noBlank⟩ := startRules_of_number isNumber rest
    rw [noName, noBracket, noBlank, Option.or_none, Option.or_none, Option.or_none]
    exact parts.renders_numberPiece
  next notNumber =>
    rw [Bool.not_eq_true, Bool.or_eq_false_iff] at notNumber
    have noNumeral : numeralRule (c :: rest) = none := by
      rw [numeralRule, numeral?_eq_none notNumber.1 (ne_of_beq_false notNumber.2), Option.map_none]
    rw [noNumeral, Option.none_or]
    split
    next starts =>
      obtain ⟨noBracket, noBlank⟩ := startRules_of_nameStart starts rest
      rw [noBracket, noBlank, Option.or_none, Option.or_none]
      exact parts.renders_namePiece starts
    next noStart =>
      rw [nameRule_eq_none (Bool.eq_false_iff.mpr noStart), Option.none_or, bracketRule]
      split
      next isOpen =>
        exact parts.renders_advance (.one asciiOnly_isOpenBracket isOpen) .bracketOpen .start
      next =>
        split
        next isClose =>
          exact parts.renders_advance (.one asciiOnly_isCloseBracket isClose) .bracketClose .start
        next =>
          rw [Option.none_or]
          split
          next blank =>
            rw [blankRule_of_isBlank blank]
            exact parts.renders_blankPiece
          next noBlank =>
            rw [blankRule_eq_none (Bool.eq_false_iff.mpr noBlank)]
            exact parts.renders_invalidPiece

theorem renders_comment (parts : cursor.Parts before after) :
    Piece.Renders { tag := .comment, after := cursor.toEnd }
      { tag := .comment, size := after.length } before after := by
  refine ⟨rfl, rfl, ?_⟩
  rw [List.take_length, List.drop_length]
  have whole : cursor.Parts before (after ++ []) := by rwa [List.append_nil]
  have moved : cursor.toEnd = cursor.advance (byteLength after) := by
    rw [toEnd, Cursor.advance, parts.lineLength_eq, Nat.max_eq_right (Nat.le_add_right _ _)]
  rw [moved]
  exact whole.advance

theorem quoteBehindLetter?_eq (parts : cursor.Parts before (c :: rest)) :
    cursor.quoteBehindLetter? = if c = 'i' then rest.head?.bind Quote.ofChar? else none := by
  have letter : AsciiOnly (· == 'i') := asciiOnly_named (by decide)
  have known : isByteOf (· == 'i') cursor.current = (c == 'i') := parts.isByteOf_current letter
  rw [quoteBehindLetter?, known]
  by_cases isLetter : c = 'i'
  · have one : AsciiAhead 1 (c :: rest) := .one letter (beq_iff_eq.mpr isLetter)
    rw [if_pos isLetter, if_pos (beq_iff_eq.mpr isLetter), parts.quoteAt?_eq one,
      List.head?_eq_getElem?]
    rfl
  · rw [if_neg isLetter, if_neg (mt beq_iff_eq.mp isLetter)]

/-- Between tokens the rules make of a place among the bytes what they make of the characters. -/
theorem renders_startPiece (parts : cursor.Parts before (c :: rest)) (comments : Bool) :
    (cursor.startPiece comments).Renders (startMatch comments (c :: rest)) before (c :: rest) := by
  have hash : isByteOf (· == '#') cursor.current = (c == '#') :=
    parts.isByteOf_current (asciiOnly_named (by decide))
  have terminator : cursor.terminatorAhead = (c :: rest).any isTerminator := by
    rw [terminatorAhead, parts.unread_eq, hasTerminator_bytes]
  have quoteHere : cursor.quoteAt? 0 = Quote.ofChar? c := parts.quoteAt?_eq (.zero _)
  rw [startMatch_eq_or, startPiece, hash, terminator, quoteHere, parts.quoteBehindLetter?_eq,
    commentRule_cons]
  split
  next => exact parts.renders_comment
  next =>
    rw [Option.none_or]
    cases isQuote : Quote.ofChar? c with
    | some quote =>
      cases Quote.ofChar?_eq_some.mp isQuote
      obtain ⟨noNumeral, noName, noBracket, noBlank⟩ := startRules_of_quote quote rest
      rw [noNumeral, noName, noBracket, noBlank, Option.or_none, Option.or_none, Option.or_none,
        Option.or_none]
      exact parts.renders_openerPiece_zero
    | none =>
      by_cases letter : c = 'i'
      · subst letter
        rw [if_pos rfl]
        cases behind : rest.head?.bind Quote.ofChar? with
        | some quote =>
          obtain ⟨q, first, known⟩ := Option.bind_eq_some_iff.mp behind
          obtain ⟨others, rfl⟩ := List.head?_eq_some_iff.mp first
          cases Quote.ofChar?_eq_some.mp known
          obtain ⟨noNumeral, noBracket, noBlank⟩ := startRules_of_letter (quote.char :: others)
          rw [noNumeral, noBracket, noBlank, Option.none_or, Option.or_none, Option.or_none]
          exact parts.renders_openerPiece_one
        | none =>
          have noOpener : openerRule ('i' :: rest) = none := by
            rw [openerRule, if_pos rfl]
            cases rest with
            | nil => rfl
            | cons q others => exact openerAt_eq_none behind 2 others
          rw [noOpener, Option.none_or]
          exact parts.renders_tokenPiece
      · rw [if_neg letter, openerRule_eq_none isQuote letter, Option.none_or]
        exact parts.renders_tokenPiece

end Parts

end Cursor

end QueryHighlight
