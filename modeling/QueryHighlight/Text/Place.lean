import QueryHighlight.Text.Width

/-!
Places in a text as people name them: the number of the line, and the bytes before the place on
that line. Only line feeds end lines here.
-/

namespace QueryHighlight.Text

structure Place where
  line : Nat
  column : Nat
  deriving DecidableEq, Repr

namespace Place

/-- The place that lies `offset` bytes further on in a text. -/
def advance (place : Place) : Nat → List Char → Place
  | 0, _ => place
  | _ + 1, [] => place
  | offset + 1, c :: rest =>
    if c = '\n' then advance ⟨place.line + 1, 0⟩ offset rest
    else
      let width := min (offset + 1) c.utf8Size
      advance ⟨place.line, place.column + width⟩ (offset + 1 - width) rest

/-- The place at a byte offset from the start of a text. -/
def ofOffset (text : List Char) (offset : Nat) : Place := advance ⟨1, 0⟩ offset text

def text (place : Place) : String :=
  "line " ++ toString place.line ++ " column " ++ toString place.column

end Place

end QueryHighlight.Text
