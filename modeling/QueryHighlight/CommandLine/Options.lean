import QueryHighlight.CommandLine.Error
import QueryHighlight.Report.Terminal

/-!
The arguments behind a command. They are read from left to right, the last argument that sets an
option wins, and the first faulty argument ends the reading. Only one input may be named.
-/

namespace QueryHighlight.CommandLine

structure Options where
  input : Option String := none
  dialect : Option Dialect := none
  config : Option String := none
  comments : Option Bool := none
  color : ColorMode := .auto
  deriving DecidableEq, Repr

/-- What an argument asks for, before it is checked. -/
inductive Argument where
  | dialect (name : String)
  | config (path : String)
  | color (mode : String)
  | comments (enabled : Bool)
  | input (name : String)
  | unknown (text : String)
  deriving DecidableEq, Repr

/-- What is left of a text behind the given beginning. -/
def behind? : List Char → List Char → Option (List Char)
  | [], text => some text
  | _ :: _, [] => none
  | letter :: letters, c :: rest => if c = letter then behind? letters rest else none

/-- The value in an argument such as `--name=value`. -/
def valueOf? (option argument : String) : Option String :=
  (behind? option.toList argument.toList).map String.ofList

/-- A lone dash names the standard input; whatever else starts with a dash is an option. -/
def Argument.ofText (text : String) : Argument :=
  match valueOf? "--dialect=" text, valueOf? "--config=" text, valueOf? "--color=" text with
  | some name, _, _ => .dialect name
  | none, some path, _ => .config path
  | none, none, some mode => .color mode
  | none, none, none =>
    if text = "--comments" then .comments true
    else if text = "--no-comments" then .comments false
    else if text = "-" ∨ text.toList.head? ≠ some '-' then .input text
    else .unknown text

namespace Options

/-- Takes one more argument into account. -/
def apply (options : Options) : Argument → Except Error Options
  | .dialect name =>
    match Dialect.ofName name with
    | .ok dialect => .ok { options with dialect := some dialect }
    | .error refusal => .error (.config (.refused refusal))
  | .config path => .ok { options with config := some path }
  | .color mode =>
    match ColorMode.ofName? mode with
    | some color => .ok { options with color := color }
    | none => .error (.invalidColor mode)
  | .comments enabled => .ok { options with comments := some enabled }
  | .input name =>
    if options.input.isSome then .error (.extraInput name)
    else .ok { options with input := some name }
  | .unknown text => .error (.unknownOption text)

/-- A dialect is set in the configuration file if there is one. -/
def conflict (options : Options) : Bool := options.dialect.isSome && options.config.isSome

def ofArguments (arguments : List String) : Except Error Options := do
  let options ← arguments.foldlM (fun options text => options.apply (.ofText text)) {}
  if options.conflict then throw .conflictingOptions
  return options

/-- The comment switch is applied on top of whatever configuration is selected. -/
def adjust (options : Options) (config : Config) : Config :=
  match options.comments with
  | some enabled => { config with comments := enabled }
  | none => config

/-- The configuration of the dialect, for a run without a configuration file. -/
def presetConfig (options : Options) : Config :=
  options.adjust (.ofDialect (options.dialect.getD default))

end Options

end QueryHighlight.CommandLine
