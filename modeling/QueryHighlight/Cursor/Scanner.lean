import QueryHighlight.Cursor.Buffer
import QueryHighlight.Cursor.Progress

/-!
The scanner at a place in the bytes of a line. It holds the whole line, of which it has read the
part before its position, and tells of a lexeme only its tag and its length in bytes. Every step
moves on, whatever bytes the line has, so a line is always read to its end.
-/

namespace QueryHighlight
open Text Scan

/-- A lexeme as a host gets it that keeps the line: its tag and how many bytes it has. -/
structure ByteLexeme where
  tag : Tag
  length : Nat
  deriving DecidableEq, Repr

namespace ByteLexeme

def endOfLine : ByteLexeme := ⟨.endOfLine, 0⟩

end ByteLexeme

/-- The lexemes of a line, and the state in which the next line starts. -/
structure MeasuredLine where
  lexemes : List ByteLexeme
  endState : State
  deriving DecidableEq, Repr

/-- A place in the bytes of a line and the state there. `continued` holds once a continuation
backslash has been read. -/
structure ByteScanner where
  comments : Bool
  state : State
  cursor : Cursor
  continued : Bool := false
  deriving DecidableEq, Repr

namespace ByteScanner

/-- What the rules make of a place in a given state. -/
def pieceAt (comments : Bool) : State → Cursor → Cursor.Piece
  | .start, cursor => cursor.startPiece comments
  | .string quote, cursor => cursor.stringPiece quote

/-- The next lexeme and the scanner behind it. At the end of the line the lexeme is empty and a
literal that was not continued is closed. -/
def next (scanner : ByteScanner) : ByteLexeme × ByteScanner :=
  if scanner.cursor.atEnd then
    (.endOfLine, { scanner with state := if scanner.continued then scanner.state else .start })
  else
    let piece := pieceAt scanner.comments scanner.state scanner.cursor
    (⟨piece.tag, piece.after.position - scanner.cursor.position⟩,
      { scanner with
        state := piece.state
        cursor := piece.after
        continued := scanner.continued || piece.tag == .stringContinuation })

theorem passes_next {scanner : ByteScanner} (inside : scanner.cursor.atEnd = false) :
    scanner.cursor.Passes scanner.next.2.cursor := by
  unfold next
  rw [if_neg (Bool.eq_false_iff.mp inside)]
  show Cursor.Passes _ (pieceAt scanner.comments scanner.state scanner.cursor).after
  cases scanner.state with
  | start => exact Cursor.passes_startPiece scanner.comments inside
  | string quote => exact Cursor.passes_stringPiece quote inside

/-- All lexemes up to the end of the line. -/
def drain (scanner : ByteScanner) : MeasuredLine :=
  if scanner.cursor.atEnd then ⟨[], scanner.next.2.state⟩
  else
    let tail := scanner.next.2.drain
    ⟨scanner.next.1 :: tail.lexemes, tail.endState⟩
termination_by scanner.cursor.lineLength - scanner.cursor.position
decreasing_by
  next inside =>
    obtain ⟨line_eq, forward⟩ := passes_next (Bool.eq_false_iff.mpr inside)
    rw [Cursor.atEnd, decide_eq_true_eq] at inside
    rw [Cursor.lineLength, line_eq]
    exact Nat.sub_lt_sub_left (Nat.lt_of_not_le inside) forward

theorem drain_of_atEnd {scanner : ByteScanner} (ended : scanner.cursor.atEnd = true) :
    scanner.drain = ⟨[], scanner.next.2.state⟩ := by
  rw [drain, if_pos ended]

theorem drain_of_inside {scanner : ByteScanner} (inside : scanner.cursor.atEnd = false) :
    scanner.drain =
      ⟨scanner.next.1 :: scanner.next.2.drain.lexemes, scanner.next.2.drain.endState⟩ := by
  rw [drain, if_neg (Bool.eq_false_iff.mp inside)]

end ByteScanner

/-- Cuts the line in a buffer into lexemes, starting in the given state. -/
def scanBuffer (comments : Bool) (state : State) (buffer : LineBuffer) : MeasuredLine :=
  ByteScanner.drain { comments, state, cursor := buffer.cursor }

end QueryHighlight
