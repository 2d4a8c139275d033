import QueryHighlight.Report.Emitter

/-!
The listing: a row for each token, with the number of the line counted from one, the span on that
line, the scope and the text in quotes. No row depends on another.
-/

namespace QueryHighlight

structure ListingEmitter where
  deriving DecidableEq, Repr

namespace ListingEmitter

def row (number : Nat) (token : Token) : String :=
  toString (number + 1) ++ ":" ++ token.span.text ++ " " ++ token.kind.scope ++ " " ++
    Text.quoted token.text ++ "\n"

instance : Emitter ListingEmitter where
  emitLine emitter line := (emitter, String.join (line.tokens.map (row line.number)))
  finish emitter := (emitter, "")

end ListingEmitter

end QueryHighlight
