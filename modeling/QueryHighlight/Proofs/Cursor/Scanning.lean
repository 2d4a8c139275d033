import QueryHighlight.Cursor.Scanner
import QueryHighlight.Proofs.Cursor.Literals

/-!
The scanner of bytes against the scanner of characters. They stand at corresponding places of a line
and do there the same, step by step, so a line is cut by either of them into pieces with the same
tags and the same lengths in bytes.
-/

namespace QueryHighlight
open Text Scan

/-- The lexeme as a host gets it that keeps the line. -/
def Scan.Lexeme.measured (lexeme : Lexeme) : ByteLexeme := ⟨lexeme.tag, lexeme.length⟩

def Scan.ScannedLine.measured (line : ScannedLine) : MeasuredLine :=
  ⟨line.lexemes.map Lexeme.measured, line.endState⟩

namespace ByteScanner

/-- A scanner of bytes stands where a scanner of characters does, with the given characters of the
line behind it. -/
structure Follows (scanner : ByteScanner) (before : List Char) (other : Scanner) : Prop where
  comments_eq : scanner.comments = other.comments
  state_eq : scanner.state = other.state
  continued_eq : scanner.continued = other.continued
  parts : scanner.cursor.Parts before other.rest

variable {scanner : ByteScanner} {before : List Char} {other : Scanner}

theorem renders_pieceAt {cursor : Cursor} {rest : List Char} (parts : cursor.Parts before rest)
    (unread : rest ≠ []) (comments : Bool) (state : State) :
    (pieceAt comments state cursor).Renders (Scanner.matchAt comments state rest) before rest := by
  obtain ⟨c, after, rfl⟩ := List.exists_cons_of_ne_nil unread
  cases state with
  | start => exact parts.renders_startPiece comments
  | string quote => exact parts.renders_stringPiece quote

theorem Follows.atEnd_eq_false (follows : scanner.Follows before other) (unread : other.rest ≠ []) :
    scanner.cursor.atEnd = false := by
  rw [Bool.eq_false_iff, Ne, follows.parts.atEnd_iff]
  exact unread

/-- Both make the same step, and behind it they correspond again. -/
theorem Follows.next (follows : scanner.Follows before other) (unread : other.rest ≠ []) :
    scanner.next.1 = other.next.1.measured ∧
      scanner.next.2.Follows (before ++ other.next.1.text) other.next.2 := by
  obtain ⟨comments_eq, state_eq, continued_eq, parts⟩ := follows
  have inside := Follows.atEnd_eq_false ⟨comments_eq, state_eq, continued_eq, parts⟩ unread
  have claimed := renders_pieceAt parts unread other.comments other.state
  have step := Scanner.next_of_matchAt unread rfl
  obtain ⟨tag_eq, piece_state, behind⟩ := claimed
  have length_eq : (pieceAt other.comments other.state scanner.cursor).after.position -
      scanner.cursor.position = other.next.1.length := by
    rw [behind.position_eq, parts.position_eq, byteLength_append, Nat.add_sub_cancel_left, step]
    rfl
  unfold ByteScanner.next
  rw [if_neg (Bool.eq_false_iff.mp inside), comments_eq, state_eq]
  dsimp only
  rw [length_eq, tag_eq, piece_state, continued_eq, step]
  exact ⟨rfl, rfl, rfl, rfl, behind⟩

theorem Follows.next_of_ended (follows : scanner.Follows before other) (ended : other.rest = []) :
    scanner.next.2.state = other.next.2.state := by
  have atEnd := follows.parts.atEnd_iff.mpr ended
  rw [Scanner.next_of_ended ended, ByteScanner.next, if_pos atEnd]
  dsimp only
  rw [follows.continued_eq, follows.state_eq]

/-- To the end of the line both emit the same. -/
theorem Follows.drain_eq (follows : scanner.Follows before other) :
    scanner.drain = other.drain.measured := by
  induction other using Scanner.drain.induct generalizing scanner before with
  | case1 other ended =>
    rw [drain_of_atEnd (follows.parts.atEnd_iff.mpr ended), Scanner.drain_of_ended ended,
      follows.next_of_ended ended]
    rfl
  | case2 other unread ih =>
    obtain ⟨lexeme_eq, later⟩ := follows.next unread
    rw [drain_of_inside (follows.atEnd_eq_false unread), Scanner.drain_of_unread unread, ih later,
      lexeme_eq]
    rfl

theorem follows_start (comments : Bool) (state : State) (line : String) :
    Follows { comments, state, cursor := (LineBuffer.ofBytes (bytes line.toList)).cursor } []
      { comments, state, rest := line.toList } := by
  refine ⟨rfl, rfl, rfl, ?_⟩
  rw [LineBuffer.cursor_ofBytes]
  exact Cursor.parts_ofLine line

end ByteScanner

/-- The scanner of bytes finds in a line what the scanner of characters finds there. -/
theorem scanBuffer_eq_measured (comments : Bool) (state : State) (line : String) :
    scanBuffer comments state (.ofBytes (bytes line.toList)) =
      (scanLine comments state line).measured := (ByteScanner.follows_start _ _ _).drain_eq

/-- A line that fits its buffer is not cut. -/
theorem scanBuffer_ofLine (comments : Bool) (state : State) {line : String}
    (fits : byteLength line.toList ≤ maxLineLength) :
    scanBuffer comments state (.ofLine line) = (scanLine comments state line).measured := by
  rw [← length_bytes] at fits
  rw [LineBuffer.ofLine, List.take_of_length_le fits, scanBuffer_eq_measured]

end QueryHighlight
