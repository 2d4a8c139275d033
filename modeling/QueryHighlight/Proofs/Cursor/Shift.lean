import Mathlib.Data.List.Find
import QueryHighlight.Cursor.Scanner

/-!
Bytes put in front of a line. A rule that is tried at a place of the line makes the same of it
whatever is put there, although it holds the whole line: it counts ahead of the place, and a word
boundary that it asks about has the byte before it in the piece that the rule is matching.
-/

namespace QueryHighlight
open Text Scan

namespace Cursor

variable (before : List UInt8) (cursor : Cursor)

/-- The same place when more bytes stand in front of the line. -/
def behind : Cursor where
  line := before ++ cursor.line
  position := before.length + cursor.position

/-- The same piece when more bytes stand in front of the line. -/
def Piece.behind (piece : Piece) : Piece := { piece with after := piece.after.behind before }

theorem unread_behind : (cursor.behind before).unread = cursor.unread := by
  rw [unread, behind, List.drop_length_add_append, unread]

theorem lineLength_behind :
    (cursor.behind before).lineLength = before.length + cursor.lineLength := List.length_append

theorem advance_behind (count : Nat) :
    (cursor.behind before).advance count = (cursor.advance count).behind before := by
  rw [advance, behind, behind, advance, Nat.add_assoc]

theorem peekAt_eq (offset : Nat) : cursor.peekAt offset = (cursor.unread[offset]?).getD 0 := by
  rw [peekAt, unread, List.getElem?_drop]

theorem peekAt_behind (offset : Nat) :
    (cursor.behind before).peekAt offset = cursor.peekAt offset := by
  rw [peekAt_eq, peekAt_eq, unread_behind]

theorem atEnd_behind : (cursor.behind before).atEnd = cursor.atEnd := by
  rw [atEnd, atEnd, lineLength_behind, behind]
  simp only [Nat.add_le_add_iff_left]

theorem isLast_behind : (cursor.behind before).isLast = cursor.isLast := by
  rw [isLast, isLast, lineLength_behind, behind, Bool.eq_iff_iff, beq_iff_eq, beq_iff_eq]
  simp only
  omega

theorem countWhile_behind (offset : Nat) (isMember : UInt8 → Bool) :
    (cursor.behind before).countWhile offset isMember = cursor.countWhile offset isMember := by
  rw [countWhile, countWhile, advance_behind, unread_behind]

/-- The look back of a word boundary stays in the piece that reaches up to it. -/
theorem boundaryAt_eq {offset : Nat} (positive : 0 < offset) :
    cursor.boundaryAt offset =
      ((cursor.unread[offset - 1]?).any isWordByte != (cursor.unread[offset]?).any isWordByte) := by
  have back : cursor.position + offset - 1 = cursor.position + (offset - 1) := by omega
  have inside : decide (0 < cursor.position + offset) = true := decide_eq_true (by omega)
  rw [boundaryAt, unread, List.getElem?_drop, List.getElem?_drop]
  simp only [inside, back, Bool.true_and]

theorem boundaryAt_behind {offset : Nat} (positive : 0 < offset) :
    (cursor.behind before).boundaryAt offset = cursor.boundaryAt offset := by
  rw [boundaryAt_eq _ positive, boundaryAt_eq _ positive, unread_behind]

theorem current_behind : (cursor.behind before).current = cursor.current :=
  peekAt_behind before cursor 0

theorem peek_behind : (cursor.behind before).peek = cursor.peek := peekAt_behind before cursor 1

theorem eatWhile_behind (isMember : UInt8 → Bool) :
    (cursor.behind before).eatWhile isMember = (cursor.eatWhile isMember).behind before := by
  rw [eatWhile, eatWhile, countWhile_behind, advance_behind]

theorem currentChar?_behind : (cursor.behind before).currentChar? = cursor.currentChar? := by
  rw [currentChar?, currentChar?, atEnd_behind, unread_behind, current_behind]

theorem advanceChar_behind :
    (cursor.behind before).advanceChar = cursor.advanceChar.behind before := by
  have ahead : (cursor.behind before).lineLength - (cursor.behind before).position =
      cursor.lineLength - cursor.position := by
    rw [lineLength_behind, behind, Nat.add_sub_add_left]
  rw [advanceChar, advanceChar, current_behind, ahead, advance_behind]

theorem toEnd_behind : (cursor.behind before).toEnd = cursor.toEnd.behind before := by
  rw [toEnd, toEnd, lineLength_behind, behind, behind]
  simp only [Nat.add_max_add_left]

theorem toDelimiter_behind (quote : UInt8) :
    (cursor.behind before).toDelimiter quote =
      ((cursor.toDelimiter quote).1, (cursor.toDelimiter quote).2.behind before) := by
  simp only [toDelimiter, atEnd_behind, unread_behind, advance_behind, current_behind]
  split <;> rfl

theorem terminatorAhead_behind :
    (cursor.behind before).terminatorAhead = cursor.terminatorAhead := by
  rw [terminatorAhead, terminatorAhead, unread_behind]

/-! Numbers -/

theorem digitCount_behind (offset : Nat) :
    (cursor.behind before).digitCount offset = cursor.digitCount offset :=
  countWhile_behind before cursor offset _

theorem pointLength?_behind : (cursor.behind before).pointLength? = cursor.pointLength? := by
  simp only [pointLength?, digitCount_behind, peekAt_behind]

theorem withExponent?_behind (length : Nat) :
    (cursor.behind before).withExponent? length = cursor.withExponent? length := by
  simp only [withExponent?, exponentLength?, digitCount_behind, peekAt_behind]

theorem floatLength?_behind : (cursor.behind before).floatLength? = cursor.floatLength? := by
  have exponents : (cursor.behind before).withExponent? = cursor.withExponent? :=
    funext (withExponent?_behind before cursor)
  simp only [floatLength?, digitCount_behind, pointLength?_behind, exponents]

theorem integerLengths_behind : (cursor.behind before).integerLengths = cursor.integerLengths := by
  simp only [integerLengths, decimalLength?, hexLength?, digitCount_behind, current_behind,
    peek_behind, countWhile_behind]

theorem longSuffixAt_behind (length : Nat) :
    (cursor.behind before).longSuffixAt length = cursor.longSuffixAt length := by
  simp only [longSuffixAt, peekAt_behind, boundaryAt_behind _ _ (Nat.succ_pos length)]

theorem integer?_behind : (cursor.behind before).integer? = cursor.integer? := by
  unfold integer?
  simp only [integerLengths_behind, longSuffixAt_behind, Option.orElse_eq_orElse,
    Option.orElse_eq_or]
  apply congrArg
  apply List.find?_congr
  rintro ⟨tag, length⟩ member
  exact boundaryAt_behind before cursor (pos_of_mem_integerLengths member)

theorem numberPiece_behind :
    (cursor.behind before).numberPiece = cursor.numberPiece.behind before := by
  simp only [numberPiece, floatLength?_behind, integer?_behind, invalidPiece, advance_behind,
    advanceChar_behind]
  cases cursor.floatLength? with
  | some length => rfl
  | none => cases cursor.integer? <;> rfl

/-! Names, openers and white space -/

theorem nameLength?_behind : (cursor.behind before).nameLength? = cursor.nameLength? := by
  rw [nameLength?, nameLength?, countWhile_behind]
  apply List.find?_congr
  intro length member
  rw [List.mem_reverse, List.mem_range'_1] at member
  exact boundaryAt_behind before cursor member.1

theorem invalidPiece_behind :
    (cursor.behind before).invalidPiece = cursor.invalidPiece.behind before := by
  rw [invalidPiece, advanceChar_behind]
  rfl

theorem namePiece_behind : (cursor.behind before).namePiece = cursor.namePiece.behind before := by
  simp only [namePiece, nameLength?_behind, invalidPiece_behind, advance_behind]
  cases cursor.nameLength? <;> rfl

theorem quoteAt?_behind (offset : Nat) :
    (cursor.behind before).quoteAt? offset = cursor.quoteAt? offset := by
  rw [quoteAt?, quoteAt?, peekAt_behind]

theorem quoteBehindLetter?_behind :
    (cursor.behind before).quoteBehindLetter? = cursor.quoteBehindLetter? := by
  rw [quoteBehindLetter?, quoteBehindLetter?, current_behind, quoteAt?_behind]

theorem hasCharAt_behind (offset : Nat) :
    (cursor.behind before).hasCharAt offset = cursor.hasCharAt offset := by
  simp only [hasCharAt, advance_behind, atEnd_behind, unread_behind]

theorem openerPiece_behind (lead : Nat) (quote : Quote) :
    (cursor.behind before).openerPiece lead quote =
      (cursor.openerPiece lead quote).behind before := by
  rw [openerPiece, openerPiece, hasCharAt_behind, advance_behind, namePiece_behind,
    invalidPiece_behind]
  simp only [apply_ite (Piece.behind before)]
  rfl

theorem atWideBlank_behind : (cursor.behind before).atWideBlank = cursor.atWideBlank := by
  rw [atWideBlank, atWideBlank, current_behind, currentChar?_behind]

theorem toBlankEnd_behind :
    (cursor.behind before).toBlankEnd = cursor.toBlankEnd.behind before := by
  fun_induction toBlankEnd cursor with
  | case1 cursor place wide ih =>
    rw [toBlankEnd]
    simp only [eatWhile_behind, atWideBlank_behind]
    rw [if_pos wide, advanceChar_behind, ih]
  | case2 cursor place narrow =>
    rw [toBlankEnd]
    simp only [eatWhile_behind, atWideBlank_behind]
    rw [if_neg narrow]

theorem tokenPiece_behind :
    (cursor.behind before).tokenPiece = cursor.tokenPiece.behind before := by
  simp only [tokenPiece, current_behind, numberPiece_behind, namePiece_behind, advance_behind,
    atWideBlank_behind, blankPiece, toBlankEnd_behind, invalidPiece_behind,
    apply_ite (Piece.behind before)]
  rfl

theorem startPiece_behind (comments : Bool) :
    (cursor.behind before).startPiece comments = (cursor.startPiece comments).behind before := by
  have quote : (cursor.behind before).quoteAt? 0 = cursor.quoteAt? 0 :=
    quoteAt?_behind before cursor 0
  simp only [startPiece, quote, quoteBehindLetter?_behind, current_behind, terminatorAhead_behind,
    toEnd_behind, openerPiece_behind, tokenPiece_behind, apply_ite (Piece.behind before)]
  cases cursor.quoteAt? 0 with
  | some quote => rfl
  | none => cases cursor.quoteBehindLetter? <;> rfl

/-! Literals -/

theorem escapeLength?_behind : (cursor.behind before).escapeLength? = cursor.escapeLength? := by
  have runs (offset count : Nat) (isMember : Char → Bool) :
      (cursor.behind before).runsAt offset count isMember =
        cursor.runsAt offset count isMember := by
    simp only [runsAt, peekAt_behind]
  simp only [escapeLength?, runs, peek_behind]

theorem atDeadBackslash_behind :
    (cursor.behind before).atDeadBackslash = cursor.atDeadBackslash := by
  rw [atDeadBackslash, atDeadBackslash, escapeLength?_behind, isLast_behind]

theorem toContentEnd_behind (quote : Quote) :
    (cursor.behind before).toContentEnd quote = (cursor.toContentEnd quote).behind before := by
  fun_induction toContentEnd quote cursor with
  | case1 cursor search dead ih =>
    rw [toContentEnd]
    simp only [toDelimiter_behind, atDeadBackslash_behind]
    rw [if_pos dead, advance_behind, ih]
  | case2 cursor search live =>
    rw [toContentEnd]
    simp only [toDelimiter_behind, atDeadBackslash_behind]
    rw [if_neg live]

theorem stringPiece_behind (quote : Quote) :
    (cursor.behind before).stringPiece quote = (cursor.stringPiece quote).behind before := by
  simp only [stringPiece, current_behind, escapeLength?_behind, advance_behind, isLast_behind,
    contentPiece, toContentEnd_behind]
  cases cursor.escapeLength? with
  | some length =>
    simp only [apply_ite (Piece.behind before)]
    rfl
  | none =>
    simp only [apply_ite (Piece.behind before)]
    rfl

end Cursor

namespace ByteScanner

variable (before : List UInt8) (scanner : ByteScanner)

/-- The same scanner when more bytes stand in front of its line. -/
def behind : ByteScanner := { scanner with cursor := scanner.cursor.behind before }

theorem pieceAt_behind (comments : Bool) (state : State) (cursor : Cursor) :
    pieceAt comments state (cursor.behind before) =
      (pieceAt comments state cursor).behind before := by
  cases state with
  | start => exact Cursor.startPiece_behind before cursor comments
  | string quote => exact Cursor.stringPiece_behind before cursor quote

/-- A step does not see what stands in front of the line. -/
theorem next_behind :
    (scanner.behind before).next = (scanner.next.1, scanner.next.2.behind before) := by
  unfold next
  simp only [behind, Cursor.atEnd_behind, pieceAt_behind]
  split
  next => rfl
  next =>
    have length_eq (piece : Cursor.Piece) :
        (piece.behind before).after.position - (scanner.cursor.behind before).position =
          piece.after.position - scanner.cursor.position := Nat.add_sub_add_left _ _ _
    rw [length_eq]
    rfl

theorem drain_behind : (scanner.behind before).drain = scanner.drain := by
  fun_induction drain scanner with
  | case1 scanner ended =>
    rw [drain_of_atEnd ((Cursor.atEnd_behind before _).trans ended), next_behind]
    rfl
  | case2 scanner inside tail ih =>
    have inside : scanner.cursor.atEnd = false := Bool.eq_false_iff.mpr inside
    rw [drain_of_inside ((Cursor.atEnd_behind before _).trans inside), next_behind, ih]

end ByteScanner

end QueryHighlight
