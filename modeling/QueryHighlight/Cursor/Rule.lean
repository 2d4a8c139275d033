import QueryHighlight.Cursor
import QueryHighlight.Scan.Rule

/-!
The rules of the scanner at a place in the bytes of a line. They test bytes and count in bytes, may
look behind the end of the line, where there are zero bytes only, and ask for word boundaries, which
look one byte back from the place that they are asked about. Characters are decoded only where a
byte beyond ASCII stands between tokens.
-/

namespace QueryHighlight.Cursor
open Text Scan

/-- The byte is an ASCII character of the class. -/
def isByteOf (isMember : Char → Bool) (byte : UInt8) : Bool :=
  byte < 0x80 && isMember (Char.ofNat byte.toNat)

/-- What a rule makes of a place: the tag of the piece that starts there, the cursor behind it, and
the state there. -/
structure Piece where
  tag : Tag
  after : Cursor
  state : State := .start
  deriving DecidableEq, Repr

/-! Number literals -/

def digitCount (cursor : Cursor) (offset : Nat) : Nat :=
  cursor.countWhile offset (isByteOf Char.isDigit)

/-- Length of `1.5`, `.5` or `3.`. -/
def pointLength? (cursor : Cursor) : Option Nat :=
  let whole := cursor.digitCount 0
  if isByteOf (· == '.') (cursor.peekAt whole) then
    let fraction := cursor.digitCount (whole + 1)
    if 0 < fraction then some (whole + 1 + fraction)
    else if 0 < whole then some (whole + 1)
    else none
  else none

/-- Length of an exponent `offset` places ahead. -/
def exponentLength? (cursor : Cursor) (offset : Nat) : Option Nat :=
  if isByteOf isExponentMark (cursor.peekAt offset) then
    let sign := if isByteOf isSign (cursor.peekAt (offset + 1)) then 1 else 0
    let digits := cursor.digitCount (offset + 1 + sign)
    if 0 < digits then some (1 + sign + digits) else none
  else none

/-- The given length, longer by the exponent that follows, if one does. -/
def withExponent? (cursor : Cursor) (length : Nat) : Option Nat :=
  (cursor.exponentLength? length).map (length + ·)

def floatLength? (cursor : Cursor) : Option Nat :=
  let whole := cursor.digitCount 0
  let point := cursor.pointLength?
  point.bind cursor.withExponent? <|>
    (if 0 < whole then cursor.withExponent? whole else none) <|> point

def decimalLength? (cursor : Cursor) : Option Nat :=
  if isByteOf (· == '0') cursor.current then some 1
  else if isByteOf Char.isDigit cursor.current then some (cursor.digitCount 0)
  else none

def hexLength? (cursor : Cursor) : Option Nat :=
  let mark := cursor.peek
  if isByteOf (· == '0') cursor.current &&
      (isByteOf (· == 'x') mark || isByteOf (· == 'X') mark) then
    let digits := cursor.countWhile 2 (isByteOf isHexDigit)
    if 0 < digits then some (2 + digits) else none
  else none

def integerLengths (cursor : Cursor) : List (Tag × Nat) :=
  cursor.decimalLength?.toList.map (Tag.integer, ·) ++
    cursor.hexLength?.toList.map (Tag.hexInteger, ·)

def longSuffixAt (cursor : Cursor) (length : Nat) : Bool :=
  let mark := cursor.peekAt length
  (isByteOf (· == 'l') mark || isByteOf (· == 'L') mark) && cursor.boundaryAt (length + 1)

def integer? (cursor : Cursor) : Option (Tag × Nat) :=
  (cursor.integerLengths.find? fun (_, length) => cursor.longSuffixAt length).map
    (fun (_, length) => (Tag.longInteger, length + 1)) <|>
  cursor.integerLengths.find? fun (_, length) => cursor.boundaryAt length

/-! Names, openers and white space -/

/-- Length of the name at the place: of the lengths in the run of name characters, the greatest with
a word boundary behind it. -/
def nameLength? (cursor : Cursor) : Option Nat :=
  let run := cursor.countWhile 0 (isByteOf isNamePart)
  (List.range' 1 run).reverse.find? cursor.boundaryAt

/-- What no rule claims is an error of one character. -/
def invalidPiece (cursor : Cursor) : Piece := { tag := .invalid, after := cursor.advanceChar }

def namePiece (cursor : Cursor) : Piece :=
  match cursor.nameLength? with
  | some length => { tag := .identifier, after := cursor.advance length }
  | none => cursor.invalidPiece

def numberPiece (cursor : Cursor) : Piece :=
  match cursor.floatLength? with
  | some length => { tag := .float, after := cursor.advance length }
  | none =>
    match cursor.integer? with
    | some (tag, length) => { tag := tag, after := cursor.advance length }
    | none => cursor.invalidPiece

/-- The quote that stands `offset` places ahead. -/
def quoteAt? (cursor : Cursor) (offset : Nat) : Option Quote :=
  if cursor.peekAt offset = Quote.double.byte then some .double
  else if cursor.peekAt offset = Quote.single.byte then some .single
  else none

/-- The quote that stands behind the letter for text that ignores case. -/
def quoteBehindLetter? (cursor : Cursor) : Option Quote :=
  if isByteOf (· == 'i') cursor.current then cursor.quoteAt? 1 else none

/-- A character that ends no line stands `offset` places ahead. -/
def hasCharAt (cursor : Cursor) (offset : Nat) : Bool :=
  let place := cursor.advance offset
  !place.atEnd && !startsTerminator place.unread

/-- The opener of a literal, with its quote behind `lead` bytes. -/
def openerPiece (cursor : Cursor) (lead : Nat) (quote : Quote) : Piece :=
  if cursor.hasCharAt (lead + 1) then
    { tag := .stringOpen, after := cursor.advance (lead + 1), state := .string quote }
  else if 0 < lead then cursor.namePiece
  else cursor.invalidPiece

/-- A blank beyond ASCII stands at the place. -/
def atWideBlank (cursor : Cursor) : Bool :=
  0x80 ≤ cursor.current && cursor.currentChar?.any isBlank

theorem position_lt_of_atWideBlank {cursor : Cursor} (wide : cursor.atWideBlank = true) :
    cursor.position < cursor.lineLength := by
  apply Nat.lt_of_not_le
  intro behind
  have ended : cursor.atEnd = true := decide_eq_true behind
  rw [atWideBlank, currentChar?, if_pos ended, Option.any_none, Bool.and_false] at wide
  exact Bool.false_ne_true wide

/-- Moves behind all blanks: behind those of ASCII first, then behind one of the others, and so
on. -/
def toBlankEnd (cursor : Cursor) : Cursor :=
  let place := cursor.eatWhile (isByteOf isBlank)
  if place.atWideBlank then place.advanceChar.toBlankEnd else place
termination_by cursor.lineLength - cursor.position
decreasing_by
  next wide =>
    have inside := position_lt_of_atWideBlank wide
    have forward : cursor.position ≤ (cursor.eatWhile (isByteOf isBlank)).position :=
      Nat.le_add_right _ _
    exact Nat.sub_lt_sub_left (Nat.lt_of_le_of_lt forward inside)
      (Nat.lt_of_le_of_lt forward (position_lt_advanceChar _))

def blankPiece (cursor : Cursor) : Piece := { tag := .whitespace, after := cursor.toBlankEnd }

/-- The piece that starts where neither a comment nor a literal does. Its first byte decides which
rule is tried. -/
def tokenPiece (cursor : Cursor) : Piece :=
  let byte := cursor.current
  if isByteOf Char.isDigit byte || isByteOf (· == '.') byte then cursor.numberPiece
  else if isByteOf isNameStart byte then cursor.namePiece
  else if isByteOf isOpenBracket byte then { tag := .bracketOpen, after := cursor.advance 1 }
  else if isByteOf isCloseBracket byte then { tag := .bracketClose, after := cursor.advance 1 }
  else if isByteOf isBlank byte || cursor.atWideBlank then cursor.blankPiece
  else cursor.invalidPiece

/-- The piece that starts at a place between tokens. -/
def startPiece (comments : Bool) (cursor : Cursor) : Piece :=
  if isByteOf (· == '#') cursor.current && comments && !cursor.terminatorAhead then
    { tag := .comment, after := cursor.toEnd }
  else
    match cursor.quoteAt? 0, cursor.quoteBehindLetter? with
    | some quote, _ => cursor.openerPiece 0 quote
    | none, some quote => cursor.openerPiece 1 quote
    | none, none => cursor.tokenPiece

/-! String literals -/

/-- From `offset` places ahead on, `count` bytes of a class stand in a row. -/
def runsAt (cursor : Cursor) (offset count : Nat) (isMember : Char → Bool) : Bool :=
  (List.range count).all fun index => isByteOf isMember (cursor.peekAt (offset + index))

/-- Length of the escape sequence that the backslash at the place starts. -/
def escapeLength? (cursor : Cursor) : Option Nat :=
  let mark := cursor.peek
  if isByteOf (· == 'x') mark && cursor.runsAt 2 2 isHexDigit then some 4
  else if cursor.runsAt 1 3 isOctalDigit then some 4
  else if isByteOf isSimpleEscape mark then some 2
  else if isByteOf (· == 'U') mark && cursor.runsAt 2 8 isHexDigit then some 10
  else if isByteOf (· == 'u') mark && cursor.runsAt 2 4 isHexDigit then some 6
  else none

/-- The backslash at the place starts no escape and does not end the line. -/
def atDeadBackslash (cursor : Cursor) : Bool := cursor.escapeLength?.isNone && !cursor.isLast

theorem position_lt_of_toDelimiter {cursor : Cursor} {quote : UInt8}
    (found : (cursor.toDelimiter quote).1 ≠ 0) : cursor.position < cursor.lineLength := by
  apply Nat.lt_of_not_le
  intro behind
  have ended : cursor.atEnd = true := decide_eq_true behind
  rw [toDelimiter, if_pos ended] at found
  exact found rfl

/-- The search for a delimiter goes forward and stays on its line. -/
theorem exists_toDelimiter (cursor : Cursor) (quote : UInt8) :
    ∃ count, (cursor.toDelimiter quote).2 = cursor.advance count := by
  rw [toDelimiter]
  split
  next => exact ⟨0, rfl⟩
  next => exact ⟨_, rfl⟩

/-- Moves behind all content of a literal in the given quotes: from one byte that may end it to the
next. -/
def toContentEnd (quote : Quote) (cursor : Cursor) : Cursor :=
  let search := cursor.toDelimiter quote.byte
  if search.1 = 0x5c ∧ search.2.atDeadBackslash then (search.2.advance 1).toContentEnd quote
  else search.2
termination_by cursor.lineLength - cursor.position
decreasing_by
  next dead =>
    have inside : cursor.position < cursor.lineLength := by
      apply position_lt_of_toDelimiter
      rw [dead.1]
      decide
    obtain ⟨count, moved⟩ := cursor.exists_toDelimiter quote.byte
    rw [moved]
    exact Nat.sub_lt_sub_left inside (Nat.lt_succ_of_le (Nat.le_add_right _ count))

def contentPiece (quote : Quote) (cursor : Cursor) : Piece :=
  { tag := .stringContent, after := cursor.toContentEnd quote, state := .string quote }

/-- The piece that starts at a place in a literal. -/
def stringPiece (quote : Quote) (cursor : Cursor) : Piece :=
  if cursor.current = 0x5c then
    match cursor.escapeLength? with
    | some length =>
      { tag := .stringEscape, after := cursor.advance length, state := .string quote }
    | none =>
      if cursor.isLast then
        { tag := .stringContinuation, after := cursor.advance 1, state := .string quote }
      else cursor.contentPiece quote
  else if cursor.current = quote.byte then { tag := .stringClose, after := cursor.advance 1 }
  else cursor.contentPiece quote

end QueryHighlight.Cursor
