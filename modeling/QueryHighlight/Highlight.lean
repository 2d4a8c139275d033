import QueryHighlight.Token

/-!
Spans to be painted. Tokens report every match of a rule on its own; a renderer wants one run for
each change of style, so neighbours of one kind that touch are joined. Joining never changes which
bytes are painted, nor how.
-/

namespace QueryHighlight

structure Highlight where
  kind : Kind
  span : Span
  deriving DecidableEq, Repr

def Token.highlight (token : Token) : Highlight := ⟨token.kind, token.span⟩

namespace Highlight

/-- The second goes on where the first ends, in the same kind. -/
def continuedBy (first second : Highlight) : Bool :=
  first.kind == second.kind && first.span.stop == second.span.start

/-- The runs of a list of spans, of which `current` is still growing. -/
def runsFrom (current : Highlight) : List Highlight → List Highlight
  | [] => [current]
  | next :: rest =>
    if current.continuedBy next then
      runsFrom ⟨current.kind, current.span.merge next.span⟩ rest
    else current :: runsFrom next rest

/-- Joins spans of one kind that follow each other without a gap. -/
def coalesce : List Highlight → List Highlight
  | [] => []
  | first :: rest => runsFrom first rest

end Highlight

end QueryHighlight
