import QueryHighlight.Json.Value
import QueryHighlight.Report.Emitter

/-!
The tokens as JSON: a list with an object for each line, written when the report is finished.
Fields are in alphabetical order, and lines are numbered from one.
-/

namespace QueryHighlight
open Scan

namespace Json

def stateName : State → String
  | .start => "start"
  | .string .double => "double_quoted_string"
  | .string .single => "single_quoted_string"

def ofSpan (span : Span) : Value :=
  .object [("end", .number span.stop), ("start", .number span.start)]

def ofToken (token : Token) : Value :=
  .object [("kind", .string token.kind.scope), ("span", ofSpan token.span),
    ("text", .string token.text)]

def ofLine (line : DocumentLine) : Value :=
  .object [("end_state", .string (stateName line.endState)), ("line", .number (line.number + 1)),
    ("start", .number line.start), ("tokens", .list (line.tokens.map ofToken))]

end Json

/-- The lines that wait for the end of the report. -/
structure JsonEmitter where
  lines : Array DocumentLine := #[]
  deriving DecidableEq, Repr

namespace JsonEmitter

instance : Emitter JsonEmitter where
  emitLine emitter line := (⟨emitter.lines.push line⟩, "")
  finish emitter :=
    (⟨#[]⟩, (Json.Value.list (emitter.lines.toList.map Json.ofLine)).text ++ "\n")

end JsonEmitter

end QueryHighlight
