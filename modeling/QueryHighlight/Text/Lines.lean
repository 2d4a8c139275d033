import QueryHighlight.Text.Width

/-!
Texts cut into lines. A line ends at a line feed, at a carriage return, or at both in this order,
which count as one. What ends a line is no part of it, and a text has one line more than it has
line ends: the empty text is one empty line.
-/

namespace QueryHighlight.Text

inductive LineEnd where
  | lineFeed
  | carriageReturn
  | both
  deriving DecidableEq, Repr

def LineEnd.chars : LineEnd → List Char
  | .lineFeed => ['\n']
  | .carriageReturn => ['\r']
  | .both => ['\r', '\n']

/-- A text as a first line and the other lines, each with the line end before it. -/
structure Segments where
  first : List Char
  others : List (LineEnd × List Char)
  deriving DecidableEq, Repr

namespace Segments

/-- A line end in front of everything, with an empty line before it. -/
def behind (lineEnd : LineEnd) (segments : Segments) : Segments :=
  ⟨[], (lineEnd, segments.first) :: segments.others⟩

/-- A character in front of everything, on the first line. -/
def extend (c : Char) (segments : Segments) : Segments :=
  ⟨c :: segments.first, segments.others⟩

def ofText : List Char → Segments
  | [] => ⟨[], []⟩
  | '\r' :: '\n' :: rest => (ofText rest).behind .both
  | '\r' :: rest => (ofText rest).behind .carriageReturn
  | '\n' :: rest => (ofText rest).behind .lineFeed
  | c :: rest => (ofText rest).extend c

/-- Puts the lines and their ends together again. -/
def toText (segments : Segments) : List Char :=
  segments.first ++ segments.others.flatMap fun (lineEnd, line) => lineEnd.chars ++ line

theorem toText_ofText (text : List Char) : (ofText text).toText = text := by
  fun_induction ofText text <;> simp_all [toText, behind, extend, LineEnd.chars]

end Segments

/-- A line and the offset of its first byte. -/
structure Line where
  offset : Nat
  text : String
  deriving DecidableEq, Repr

/-- The lines behind the one that stops at `offset`. -/
def linesFrom (offset : Nat) : List (LineEnd × List Char) → List Line
  | [] => []
  | (lineEnd, line) :: rest =>
    let start := offset + byteLength lineEnd.chars
    ⟨start, String.ofList line⟩ :: linesFrom (start + byteLength line) rest

def splitLines (text : String) : List Line :=
  let segments := Segments.ofText text.toList
  ⟨0, String.ofList segments.first⟩ :: linesFrom (byteLength segments.first) segments.others

end QueryHighlight.Text
