import QueryHighlight.Text.Width

/-!
A line read byte by byte, for hosts that keep positions in bytes. The line is followed by as many
zero bytes as are asked for, so a position may lie anywhere, inside a character and behind the end
too; questions about characters are answered only where a character starts.
-/

namespace QueryHighlight

structure Cursor where
  line : List UInt8
  position : Nat := 0
  deriving DecidableEq, Repr

namespace Cursor

def ofLine (line : String) : Cursor := { line := Text.bytes line.toList }

def lineLength (cursor : Cursor) : Nat := cursor.line.length

/-- The byte `offset` places ahead, zero behind the end of the line. -/
def peekAt (cursor : Cursor) (offset : Nat) : UInt8 :=
  (cursor.line[cursor.position + offset]?).getD 0

def current (cursor : Cursor) : UInt8 := cursor.peekAt 0

def peek (cursor : Cursor) : UInt8 := cursor.peekAt 1

def advance (cursor : Cursor) (count : Nat) : Cursor :=
  { cursor with position := cursor.position + count }

def atEnd (cursor : Cursor) : Bool := cursor.lineLength ≤ cursor.position

/-- The current byte is the last of the line. -/
def isLast (cursor : Cursor) : Bool := cursor.position + 1 == cursor.lineLength

/-- The bytes from the position to the end of the line. -/
def unread (cursor : Cursor) : List UInt8 := cursor.line.drop cursor.position

/-- Number of bytes of a class in a row from `offset` places ahead. The class must not have the
zero byte, so the row ends at the end of the line. -/
def countWhile (cursor : Cursor) (offset : Nat) (isMember : UInt8 → Bool) : Nat :=
  (((cursor.advance offset).unread).takeWhile isMember).length

def eatWhile (cursor : Cursor) (isMember : UInt8 → Bool) : Cursor :=
  cursor.advance (cursor.countWhile 0 isMember)

/-- Bytes of the character that starts with a given byte; a byte that starts none stands for
itself. -/
def charWidth (byte : UInt8) : Nat :=
  if 0xc0 ≤ byte ∧ byte ≤ 0xdf then 2
  else if 0xe0 ≤ byte ∧ byte ≤ 0xef then 3
  else if 0xf0 ≤ byte ∧ byte ≤ 0xf7 then 4
  else 1

/-- The character that starts at the position, if one does: the bytes that the first of them asks
for have to be a text. -/
def currentChar? (cursor : Cursor) : Option Char :=
  if cursor.atEnd then none
  else
    let piece := cursor.unread.take (charWidth cursor.current)
    (String.fromUTF8? piece.toByteArray).bind fun text => text.toList.head?

/-- Moves behind the current character, and by one byte at least. -/
def advanceChar (cursor : Cursor) : Cursor :=
  cursor.advance (max 1 (min (charWidth cursor.current) (cursor.lineLength - cursor.position)))

theorem position_lt_advanceChar (cursor : Cursor) :
    cursor.position < cursor.advanceChar.position :=
  Nat.lt_add_of_pos_right (Nat.lt_of_lt_of_le Nat.zero_lt_one (Nat.le_max_left _ _))

def toEnd (cursor : Cursor) : Cursor :=
  { cursor with position := max cursor.position cursor.lineLength }

/-- Moves to the next quote or backslash and tells which it is, or to the end of the line. -/
def toDelimiter (cursor : Cursor) (quote : UInt8) : UInt8 × Cursor :=
  if cursor.atEnd then (0, cursor)
  else
    let isOrdinary (byte : UInt8) : Bool := byte != quote && byte != 0x5c
    let found := cursor.advance (cursor.unread.takeWhile isOrdinary).length
    (found.current, found)

/-- A line terminator starts the given bytes: a line feed, a carriage return, or one of the two
separators U+2028 and U+2029. -/
def startsTerminator : List UInt8 → Bool
  | 0xe2 :: 0x80 :: last :: _ => last == 0xa8 || last == 0xa9
  | first :: _ => first == 0x0a || first == 0x0d
  | [] => false

/-- Bytes that an encoded line terminator may start with. The last of them leads the encodings of
both separators, and of many other characters. -/
def mayStartTerminator (byte : UInt8) : Bool := byte == 0x0a || byte == 0x0d || byte == 0xe2

/-- The given bytes from the first one on that a line terminator may start with. -/
def toCandidate (bytes : List UInt8) : List UInt8 :=
  bytes.dropWhile fun byte => !mayStartTerminator byte

theorem length_lt_of_toCandidate {bytes rest : List UInt8} {byte : UInt8}
    (found : toCandidate bytes = byte :: rest) : rest.length < bytes.length := by
  have leapt : (toCandidate bytes).length ≤ bytes.length := (List.dropWhile_suffix _).length_le
  rw [found, List.length_cons] at leapt
  exact leapt

/-- A line terminator starts somewhere in the given bytes. The search leaps from one byte that may
start one to the next; where another character starts, it goes on one byte further, inside of it. -/
def hasTerminator (bytes : List UInt8) : Bool :=
  match _found : toCandidate bytes with
  | [] => false
  | byte :: rest => startsTerminator (byte :: rest) || hasTerminator rest
termination_by bytes.length
decreasing_by exact length_lt_of_toCandidate ‹_›

theorem hasTerminator_of_found {bytes rest : List UInt8} {byte : UInt8}
    (found : toCandidate bytes = byte :: rest) :
    hasTerminator bytes = (startsTerminator (byte :: rest) || hasTerminator rest) := by
  rw [hasTerminator]
  split
  next absent => cases found.symm.trans absent
  next again =>
    obtain ⟨rfl, rfl⟩ := List.cons.inj (found.symm.trans again)
    rfl

theorem hasTerminator_of_absent {bytes : List UInt8} (absent : toCandidate bytes = []) :
    hasTerminator bytes = false := by
  rw [hasTerminator]
  split
  next => rfl
  next found => cases absent.symm.trans found

/-- A line terminator stands between the position and the end of the line. -/
def terminatorAhead (cursor : Cursor) : Bool := hasTerminator cursor.unread

def isWordByte (byte : UInt8) : Bool :=
  0x30 ≤ byte && byte ≤ 0x39 || 0x41 ≤ byte && byte ≤ 0x5a || 0x61 ≤ byte && byte ≤ 0x7a ||
    byte == 0x5f

/-- A word boundary stands `offset` places ahead; what is outside the line belongs to no word. -/
def boundaryAt (cursor : Cursor) (offset : Nat) : Bool :=
  let place := cursor.position + offset
  let wordAt (index : Nat) : Bool := (cursor.line[index]?).any isWordByte
  (0 < place && wordAt (place - 1)) != wordAt place

end Cursor

end QueryHighlight
