import QueryHighlight.Report.Emitter

/-!
The query itself, coloured for a terminal. Tokens of one kind that touch are coloured together, so
that each run has one style sequence before it and one reset behind it.
-/

namespace QueryHighlight

/-- When to colour: `auto` leaves it to whether the output is a terminal. -/
inductive ColorMode where
  | auto
  | always
  | never
  deriving DecidableEq, Repr

namespace ColorMode

instance : Inhabited ColorMode := ⟨auto⟩

def all : List ColorMode := [auto, always, never]

def name : ColorMode → String
  | auto => "auto"
  | always => "always"
  | never => "never"

def ofName? (name : String) : Option ColorMode := all.find? fun mode => mode.name == name

def usesColors (mode : ColorMode) (isTerminal : Bool) : Bool :=
  match mode with
  | auto => isTerminal
  | always => true
  | never => false

end ColorMode

namespace Terminal

/-- The sequence that sets the attributes of the text behind it. -/
def styleSequence (attributes : String) : String := "\x1b[" ++ attributes ++ "m"

def reset : String := styleSequence "0"

/-- Attributes of a kind; what carries no meaning of its own stays plain. -/
def attributes? : Kind → Option String
  | .keyword => some "1;35"
  | .function => some "1;36"
  | .constant => some "35"
  | .numeric => some "33"
  | .string => some "32"
  | .stringEscape => some "1;32"
  | .comment => some "2"
  | .error => some "1;31"
  | .identifier | .bracketOpen | .bracketClose | .whitespace => none

def painted (colors : Bool) (kind : Kind) (text : List Char) : String :=
  match if colors then attributes? kind else none with
  | some attributes => styleSequence attributes ++ String.ofList text ++ reset
  | none => String.ofList text

/-- Cuts a line into runs that follow each other from its start. -/
def paintRuns (colors : Bool) : List Char → List Highlight → List String
  | _, [] => []
  | text, run :: rest =>
    painted colors run.kind (Text.takeBytes run.span.length text) ::
      paintRuns colors (Text.dropBytes run.span.length text) rest

end Terminal

/-- `first` holds until a line has been written, and `openLine` while the last line that was
written had text and has not been ended. -/
structure TerminalEmitter where
  colors : Bool
  first : Bool := true
  openLine : Bool := false
  deriving DecidableEq, Repr

namespace TerminalEmitter

instance : Emitter TerminalEmitter where
  emitLine emitter line :=
    let runs := Highlight.coalesce (line.tokens.map Token.highlight)
    let separator := if emitter.first then "" else "\n"
    let text := line.text
    ({ emitter with first := false, openLine := !text.isEmpty },
      separator ++ String.join (Terminal.paintRuns emitter.colors text.toList runs))
  finish emitter :=
    ({ emitter with openLine := false }, if emitter.openLine then "\n" else "")

end TerminalEmitter

end QueryHighlight
