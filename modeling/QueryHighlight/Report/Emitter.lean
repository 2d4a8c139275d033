import QueryHighlight.Document

/-!
Reports on a tokenized document. A report is written line by line and then finished, and it may be
continued after that; every step yields the emitter behind it and the text that it writes.
-/

namespace QueryHighlight

class Emitter (ε : Type) where
  emitLine : ε → DocumentLine → ε × String
  finish : ε → ε × String

export Emitter (emitLine finish)

/-- Writes all lines of a document. -/
def emitAll {ε : Type} [Emitter ε] (emitter : ε) (lines : List DocumentLine) : ε × String :=
  lines.foldl
    (fun (emitter, written) line =>
      let (emitter, text) := emitLine emitter line
      (emitter, written ++ text))
    (emitter, "")

/-- The whole report on a document. -/
def report {ε : Type} [Emitter ε] (emitter : ε) (lines : List DocumentLine) : String :=
  let (emitter, written) := emitAll emitter lines
  written ++ (finish emitter).2

end QueryHighlight
