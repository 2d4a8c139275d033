import QueryHighlight.Proofs.Cursor.Tokens
import QueryHighlight.Proofs.Scan.PairedText

/-!
Pieces of string literals at a place in the bytes of a line. The search for what ends the content of
a literal passes whole characters, because neither a quote nor a backslash is a byte of any other
character.
-/

namespace QueryHighlight
open Text Scan

theorem asciiOnly_isSimpleEscape : AsciiOnly isSimpleEscape :=
  asciiOnly_of_mem_tokenTests _ (by simp [tokenTests])

theorem asciiOnly_isOctalDigit : AsciiOnly isOctalDigit :=
  asciiOnly_of_mem_tokenTests _ (by simp [tokenTests])

namespace Scan

variable {c : Char} {rest text : List Char} {quote : Quote}

/-- What a backslash turns into an escape is of ASCII. -/
theorem ascii_of_escapeSize? {size : Nat} (found : escapeSize? ('\\' :: c :: rest) = some size) :
    c.val.toNat ≤ 0x7f := by
  rw [escapeSize?, if_neg (not_not_intro rfl)] at found
  split at found
  next simple => exact (asciiOnly_isSimpleEscape c simple).2
  next =>
    split at found
    next hexadecimal => rw [hexadecimal.1]; decide
    next =>
      split at found
      next octal => exact (asciiOnly_isOctalDigit c (Bool.and_eq_true_iff.mp octal).1).2
      next =>
        split at found
        next long => rw [long.1]; decide
        next =>
          obtain ⟨short, -⟩ := Option.ite_none_right_eq_some.mp found
          rw [short.1]
          decide

/-- The rules in a literal one behind the other. -/
theorem stringMatch_cons (quote : Quote) (c : Char) (rest : List Char) :
    stringMatch quote (c :: rest) =
      match escapeSize? (c :: rest) with
      | some size => { tag := .stringEscape, size, state := .string quote }
      | none =>
        if isContinuation (c :: rest) then
          { tag := .stringContinuation, size := 1, state := .string quote }
        else if c = quote.char then { tag := .stringClose, size := 1 }
        else
          { tag := .stringContent,
            size := contentSize quote (c :: rest),
            state := .string quote } := by
  unfold stringMatch stringRules
  simp only [List.findSome?_cons, List.findSome?_nil, escapeRule, continuationRule, closerRule]
  cases escapeSize? (c :: rest) with
  | some size => rfl
  | none =>
    cases isContinuation (c :: rest) with
    | true => rfl
    | false =>
      by_cases closes : c = quote.char
      · simp [closes]
      · simp [closes]

/-- The escapes of one character are told apart from those with digits by that character. -/
theorem apart_of_isSimpleEscape (simple : isSimpleEscape c = true) :
    c ≠ 'x' ∧ isOctalDigit c = false := by
  simp only [isSimpleEscape, Bool.or_eq_true, beq_iff_eq] at simple
  rcases simple with (((((((((rfl | rfl) | rfl) | rfl) | rfl) | rfl) | rfl) | rfl) | rfl) | rfl) <;>
    decide

/-- What the search for the end of a literal passes by. -/
def isOrdinary (quote : Quote) (c : Char) : Bool := c != quote.char && c != '\\'

theorem contentSize_eq_add (quote : Quote) (text : List Char) :
    contentSize quote text = (text.takeWhile (isOrdinary quote)).length +
      contentSize quote (text.dropWhile (isOrdinary quote)) := by
  induction text with
  | nil => rfl
  | cons c rest ih =>
    by_cases ordinary : isOrdinary quote c = true
    · have different := Bool.and_eq_true_iff.mp ordinary
      have inside : isContent quote (c :: rest) = true :=
        isContent_plain (bne_iff_ne.mp different.2) (bne_iff_ne.mp different.1)
      rw [contentSize, if_pos inside, List.takeWhile_cons_of_pos ordinary,
        List.dropWhile_cons_of_pos ordinary, ih, List.length_cons, Nat.add_right_comm]
    · rw [List.takeWhile_cons_of_neg ordinary, List.dropWhile_cons_of_neg ordinary, List.length_nil,
        Nat.zero_add]

theorem takeWhile_bytes (quote : Quote) (text : List Char) :
    (bytes text).takeWhile (fun byte => byte != quote.byte && byte != 0x5c) =
      bytes (text.takeWhile (isOrdinary quote)) := by
  induction text with
  | nil => rfl
  | cons c rest ih =>
    rw [bytes_cons]
    by_cases ordinary : isOrdinary quote c = true
    · have different := Bool.and_eq_true_iff.mp ordinary
      have passed : ∀ byte ∈ String.utf8EncodeChar c,
          (byte != quote.byte && byte != 0x5c) = true := by
        intro byte member
        rw [Bool.and_eq_true, bne_iff_ne, bne_iff_ne]
        constructor
        · rintro rfl
          exact bne_iff_ne.mp different.1 (eq_quote_of_mem member)
        · rintro rfl
          exact bne_iff_ne.mp different.2 (eq_backslash_of_mem member)
      rw [List.takeWhile_append_of_pos passed, ih, List.takeWhile_cons_of_pos ordinary, bytes_cons]
    · rw [List.takeWhile_cons_of_neg ordinary]
      have stops : c = quote.char ∨ c = '\\' := by
        simpa [isOrdinary, Classical.or_iff_not_imp_left] using ordinary
      rcases stops with rfl | rfl
      · cases quote <;> rfl
      · cases quote <;> rfl

end Scan

theorem AsciiAhead.of_escapeSize? {text : List Char} {size : Nat}
    (found : escapeSize? text = some size) : AsciiAhead size text := by
  obtain ⟨c, digits, escape⟩ := exists_isEscape found
  obtain ⟨further, rfl⟩ := escape.starts
  rw [escape.length]
  have run : AsciiAhead digits.length (digits ++ further) := by
    refine ⟨by rw [List.length_append]; exact Nat.le_add_right _ _, ?_⟩
    intro d member
    rw [List.take_left] at member
    exact (asciiOnly_isHexDigit d (escape.areDigits d member)).2
  exact (run.cons (ascii_of_escapeSize? found)).cons (by decide)

namespace Cursor

namespace Parts

variable {cursor : Cursor} {before after rest : List Char} {c : Char} {offset : Nat} {quote : Quote}

theorem runsAt_eq (parts : cursor.Parts before after) (ascii : AsciiAhead offset after)
    {isMember : Char → Bool} (only : AsciiOnly isMember) (count : Nat) :
    cursor.runsAt offset count isMember = startsWithRun isMember count (after.drop offset) := by
  induction count generalizing offset with
  | zero => rfl
  | succ count ih =>
    have first : cursor.runsAt offset (count + 1) isMember =
        (isByteOf isMember (cursor.peekAt offset) &&
          cursor.runsAt (offset + 1) count isMember) := by
      have shifted : (fun index => isByteOf isMember (cursor.peekAt (offset + index))) ∘ Nat.succ =
          fun index => isByteOf isMember (cursor.peekAt (offset + 1 + index)) := by
        funext index
        rw [Function.comp_apply, Nat.succ_eq_add_one, Nat.add_comm index, Nat.add_assoc]
      rw [runsAt, runsAt, List.range_succ_eq_map, List.all_cons, List.all_map, shifted,
        Nat.add_zero]
    rw [first, parts.isByteOf_peekAt ascii only, ← List.head?_drop]
    cases behind : after.drop offset with
    | nil => rfl
    | cons c rest =>
      by_cases member : isMember c = true
      · rw [ih (ascii.succ behind (only c member).2), drop_succ_of_drop behind]
        rfl
      · rw [startsWithRun, List.head?_cons, Option.any_some, Bool.eq_false_iff.mpr member,
          Bool.false_and, Bool.false_and]

/-- Digits are counted only behind a character that calls for them. -/
theorem markedRun_eq (parts : cursor.Parts before ('\\' :: c :: rest)) {mark : Char}
    (named : mark ∈ namedChars) (count : Nat) :
    (isByteOf (· == mark) cursor.peek && cursor.runsAt 2 count isHexDigit) =
      (c == mark && startsWithRun isHexDigit count rest) := by
  have one : AsciiAhead 1 ('\\' :: c :: rest) := (AsciiAhead.zero _).cons (by decide)
  have here : isByteOf (· == mark) cursor.peek = (c == mark) :=
    parts.isByteOf_peekAt one (asciiOnly_named named)
  rw [here]
  by_cases isMark : c = mark
  · have two : AsciiAhead 2 ('\\' :: c :: rest) := by
      apply one.succ rfl
      exact (asciiOnly_named named c (beq_iff_eq.mpr isMark)).2
    rw [parts.runsAt_eq two asciiOnly_isHexDigit]
    rfl
  · rw [beq_false_of_ne isMark, Bool.false_and, Bool.false_and]

theorem escapeLength?_eq (parts : cursor.Parts before ('\\' :: rest)) :
    cursor.escapeLength? = escapeSize? ('\\' :: rest) := by
  have one : AsciiAhead 1 ('\\' :: rest) := (AsciiAhead.zero _).cons (by decide)
  have octal := parts.runsAt_eq one asciiOnly_isOctalDigit 3
  have simple : isByteOf isSimpleEscape cursor.peek = (rest.head?).any isSimpleEscape := by
    rw [peek, parts.isByteOf_peekAt one asciiOnly_isSimpleEscape, List.head?_eq_getElem?]
    rfl
  dsimp only [escapeLength?]
  cases rest with
  | nil =>
    have unmarked {mark : Char} (named : mark ∈ namedChars) :
        isByteOf (· == mark) cursor.peek = false :=
      parts.isByteOf_peekAt one (asciiOnly_named named)
    rw [unmarked (by decide), unmarked (by decide), unmarked (by decide), octal, simple]
    rfl
  | cons c rest =>
    rw [parts.markedRun_eq (by decide), parts.markedRun_eq (by decide),
      parts.markedRun_eq (by decide), octal, simple, escapeSize?, if_neg (not_not_intro rfl)]
    by_cases isSimple : isSimpleEscape c = true
    · obtain ⟨noMark, noOctal⟩ := apart_of_isSimpleEscape isSimple
      simp [isSimple, noMark, noOctal, startsWithRun]
    · simp [isSimple]

/-- A backslash that the line ends on is one byte before its end. -/
theorem isLast_eq (parts : cursor.Parts before ('\\' :: rest)) : cursor.isLast = rest.isEmpty := by
  have width : '\\'.utf8Size = 1 := rfl
  rw [isLast, parts.lineLength_eq, byteLength_cons, width, Bool.eq_iff_iff, beq_iff_eq,
    List.isEmpty_iff, ← byteLength_eq_zero]
  omega

theorem current_eq_backslash_iff (parts : cursor.Parts before after) :
    cursor.current = 0x5c ↔ after.head? = some '\\' := parts.current_eq_iff (by decide) rfl

theorem current_eq_quote_iff (parts : cursor.Parts before after) :
    cursor.current = quote.byte ↔ after.head? = some quote.char := by
  cases quote <;> exact parts.current_eq_iff (by decide) rfl

/-- The search for a delimiter stops behind whole characters, and tells what it stops at. -/
theorem toDelimiter (parts : cursor.Parts before after) (quote : Quote) :
    (cursor.toDelimiter quote.byte).1 = (cursor.toDelimiter quote.byte).2.current ∧
      (cursor.toDelimiter quote.byte).2.Parts (before ++ after.takeWhile (isOrdinary quote))
        (after.dropWhile (isOrdinary quote)) := by
  by_cases ended : cursor.atEnd = true
  · obtain rfl := parts.atEnd_iff.mp ended
    rw [Cursor.toDelimiter, if_pos ended, List.takeWhile_nil, List.append_nil]
    refine ⟨?_, parts⟩
    rw [current_eq_headD_unread, parts.unread_eq]
    rfl
  · have split : after.takeWhile (isOrdinary quote) ++ after.dropWhile (isOrdinary quote) = after :=
      List.takeWhile_append_dropWhile
    have counted : (cursor.unread.takeWhile fun byte =>
        byte != quote.byte && byte != 0x5c).length =
        byteLength (after.takeWhile (isOrdinary quote)) := by
      rw [parts.unread_eq, takeWhile_bytes, length_bytes]
    rw [toDelimiter_eq (Bool.eq_false_iff.mpr ended) quote.byte counted]
    refine ⟨rfl, ?_⟩
    rw [← split] at parts
    exact parts.advance

theorem atDeadBackslash_eq (parts : cursor.Parts before ('\\' :: rest)) (quote : Quote) :
    cursor.atDeadBackslash = isContent quote ('\\' :: rest) := by
  have noQuote : ('\\' != quote.char) = true := by cases quote <;> rfl
  have goesOn : isContinuation ('\\' :: rest) = rest.isEmpty := by cases rest <;> rfl
  rw [atDeadBackslash, parts.escapeLength?_eq, parts.isLast_eq, isContent, noQuote, goesOn,
    Bool.true_and]

end Parts

/-- What the search stops at is content exactly if it is a dead backslash. -/
theorem isContent_dropWhile (quote : Quote) (text : List Char) {found : Cursor} {before : List Char}
    (parts : found.Parts before (text.dropWhile (isOrdinary quote))) :
    isContent quote (text.dropWhile (isOrdinary quote)) = true ↔
      found.current = 0x5c ∧ found.atDeadBackslash = true := by
  rw [parts.current_eq_backslash_iff]
  cases behind : text.dropWhile (isOrdinary quote) with
  | nil => simp [isContent]
  | cons c rest =>
    rw [behind] at parts
    by_cases isBackslash : c = '\\'
    · subst isBackslash
      rw [parts.atDeadBackslash_eq quote]
      simp
    · have stopped := List.head?_dropWhile_not (isOrdinary quote) text
      rw [behind] at stopped
      have isQuote : c = quote.char := by simpa [isOrdinary, isBackslash] using stopped
      simp [isContent, isQuote ▸ isBackslash, isQuote]

theorem parts_toContentEnd (quote : Quote) (cursor : Cursor) : ∀ before after,
    cursor.Parts before after →
      (cursor.toContentEnd quote).Parts (before ++ after.take (contentSize quote after))
        (after.drop (contentSize quote after)) := by
  fun_induction toContentEnd quote cursor with
  | case1 cursor search dead ih =>
    intro before after parts
    obtain ⟨known, stopped⟩ := parts.toDelimiter quote
    have split : after.takeWhile (isOrdinary quote) ++ after.dropWhile (isOrdinary quote) = after :=
      List.takeWhile_append_dropWhile
    have current : search.2.current = 0x5c := known.symm.trans dead.1
    have inside := (isContent_dropWhile quote after stopped).mpr ⟨current, dead.2⟩
    obtain ⟨rest, behind⟩ := List.head?_eq_some_iff.mp (stopped.current_eq_backslash_iff.mp current)
    rw [behind] at inside stopped
    have regrouped : search.2.Parts _ (['\\'] ++ rest) := stopped
    have passed := ih _ _ regrouped.advance
    rw [contentSize_eq_add, behind, contentSize, if_pos inside]
    rw [behind] at split
    generalize after.takeWhile (isOrdinary quote) = plain at split passed ⊢
    subst split
    rw [List.take_length_add_append, List.drop_length_add_append, List.take_succ_cons,
      List.drop_succ_cons]
    rwa [List.append_assoc, List.append_assoc, List.singleton_append] at passed
  | case2 cursor search live =>
    intro before after parts
    obtain ⟨known, stopped⟩ := parts.toDelimiter quote
    have outside : isContent quote (after.dropWhile (isOrdinary quote)) = false := by
      rw [Bool.eq_false_iff, Ne, isContent_dropWhile quote after stopped, ← known]
      exact live
    have none : contentSize quote (after.dropWhile (isOrdinary quote)) = 0 := by
      cases behind : after.dropWhile (isOrdinary quote) with
      | nil => rfl
      | cons c rest =>
        rw [behind] at outside
        rw [contentSize, outside]
        rfl
    rw [contentSize_eq_add, none, Nat.add_zero, take_length_takeWhile, drop_length_takeWhile]
    exact stopped

namespace Parts

variable {cursor : Cursor} {before rest : List Char} {c : Char}

theorem renders_contentPiece (parts : cursor.Parts before after) (quote : Quote) :
    (cursor.contentPiece quote).Renders
      { tag := .stringContent, size := contentSize quote after, state := .string quote }
      before after :=
  ⟨rfl, rfl, parts_toContentEnd quote cursor before after parts⟩

/-- In a literal the rules make of a place among the bytes what they make of the characters. -/
theorem renders_stringPiece (parts : cursor.Parts before (c :: rest)) (quote : Quote) :
    (cursor.stringPiece quote).Renders (stringMatch quote (c :: rest)) before (c :: rest) := by
  have backslash : cursor.current = 0x5c ↔ c = '\\' :=
    parts.current_eq_backslash_iff.trans Option.some_inj
  have closing : cursor.current = quote.byte ↔ c = quote.char :=
    parts.current_eq_quote_iff.trans Option.some_inj
  have claimed := stringMatch_cons quote c rest
  unfold stringPiece
  simp only [backslash, closing]
  split
  next isBackslash =>
    subst isBackslash
    rw [parts.escapeLength?_eq, claimed]
    cases found : escapeSize? ('\\' :: rest) with
    | some size => exact parts.renders_advance (.of_escapeSize? found) .stringEscape (.string quote)
    | none =>
      dsimp only
      rw [parts.isLast_eq]
      cases rest with
      | nil =>
        exact parts.renders_advance ((AsciiAhead.zero []).cons (by decide)) .stringContinuation
          (.string quote)
      | cons d others =>
        have noQuote : '\\' ≠ quote.char := by cases quote <;> decide
        have goesOn : ¬isContinuation ('\\' :: d :: others) = true := Bool.false_ne_true
        rw [if_neg goesOn, if_neg noQuote]
        exact parts.renders_contentPiece quote
  next noBackslash =>
    have noEscape : escapeSize? (c :: rest) = none := by
      cases rest with
      | nil => rfl
      | cons d others => rw [escapeSize?, if_pos noBackslash]
    have goesOn : ¬isContinuation (c :: rest) = true := by
      intro ends
      exact noBackslash (List.cons.inj (eq_of_isContinuation ends)).1
    rw [claimed, noEscape]
    dsimp only
    rw [if_neg goesOn]
    split
    next closes =>
      have ascii : c.val.toNat ≤ 0x7f := by rw [closes]; cases quote <;> decide
      exact parts.renders_advance ((AsciiAhead.zero rest).cons ascii) .stringClose .start
    next => exact parts.renders_contentPiece quote

end Parts

end Cursor

end QueryHighlight
