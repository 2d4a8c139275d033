import QueryHighlight.CommandLine.Options
import QueryHighlight.Config.Reader
import QueryHighlight.Report.Json
import QueryHighlight.Report.Listing

/-!
A run of the command line. What a run prints is a function of its arguments and of the texts that
it reads, which come as a function of their sources; how settings are written in a text is left to
the parser that a run is given. A run prints its whole report or nothing of it: every stage that can
fail comes before the report.
-/

namespace QueryHighlight.CommandLine

inductive Command where
  | lex
  | highlight
  | json
  deriving DecidableEq, Repr

namespace Command

def all : List Command := [lex, highlight, json]

def name : Command → String
  | lex => "lex"
  | highlight => "highlight"
  | json => "json"

def ofName (name : String) : Except Error Command :=
  match all.find? fun command => command.name == name with
  | some command => .ok command
  | none => .error (.unknownCommand name)

end Command

/-- The report that a command prints. -/
def render (command : Command) (options : Options) (isTerminal : Bool)
    (lines : List DocumentLine) : String :=
  match command with
  | .lex => report ListingEmitter.mk lines
  | .highlight =>
    report ({ colors := options.color.usesColors isTerminal } : TerminalEmitter) lines
  | .json => report ({} : JsonEmitter) lines

/-- Where a text is read from. -/
inductive Source where
  | standardInput
  | file (path : String)
  deriving DecidableEq, Repr

namespace Source

def ofInput (name : String) : Source := if name = "-" then .standardInput else .file name

/-- How messages name a source of input. -/
def label : Source → String
  | .standardInput => "<stdin>"
  | .file path => path

end Source

abbrev Reader := Source → Except ReadFailure String

/-- The text of the input. -/
def readInput (read : Reader) (options : Options) : Except Error String :=
  match options.input with
  | none => .error .missingInput
  | some name =>
    let source := Source.ofInput name
    (read source).mapError (.unreadableInput source.label)

/-- The configuration that the options select: the file's if one is named, else the preset. -/
def readConfig (parse : SettingsParser) (read : Reader) (options : Options) :
    Except Error Config :=
  match options.config with
  | none => .ok options.presetConfig
  | some path => do
    let text ← (read (.file path)).mapError (.unreadableConfig path)
    let config ← (Config.load parse text).mapError .config
    return options.adjust config

/-- What a command prints. -/
def execute (parse : SettingsParser) (read : Reader) (isTerminal : Bool) (command : Command)
    (options : Options) : Except Error String := do
  let text ← readInput read options
  let config ← readConfig parse read options
  let tokenizer ← config.build.mapError fun refusal => .config (.refused refusal)
  return render command options isTerminal (tokenizeDocument tokenizer text)

def usageLines : List String :=
  ["mmq-hl: highlight mailing filter queries",
    "",
    "Usage: mmq-hl <command> <file|-> [options]",
    "",
    "Commands:",
    "  lex         Print one row per token",
    "  highlight   Print the query with ANSI colors",
    "  json        Print tokens as JSON",
    "",
    "Options:",
    "  --dialect=<name>     Keyword preset: massmailer (default), mailing",
    "  --config=<path>      JSON tokenizer config (replaces --dialect)",
    "  --comments           Recognize # line comments",
    "  --no-comments        Treat # as an invalid character",
    "  --color=<mode>       highlight only: auto (default), always, never",
    "",
    "Set RUST_LOG=debug to trace tokenization."]

def usage : String := String.join (usageLines.map (· ++ "\n"))

def version : String := "mmq-hl 0.1.0\n"

/-- What a run leaves behind. -/
structure Outcome where
  code : Nat
  stdout : String
  stderr : String
  deriving DecidableEq, Repr

namespace Outcome

def success (stdout : String) : Outcome := ⟨0, stdout, ""⟩

def failure (error : Error) : Outcome := ⟨1, "", "error: " ++ error.message ++ "\n"⟩

end Outcome

/-- A run with the given arguments. A command that is not known is answered with the usage too. -/
def runWith (parse : SettingsParser) (read : Reader) (isTerminal : Bool) : List String → Outcome
  | [] => .success usage
  | name :: arguments =>
    if ["help", "--help", "-h"].contains name then .success usage
    else if ["version", "--version", "-V"].contains name then .success version
    else match Command.ofName name with
      | .error error => ⟨1, usage, "error: " ++ error.message ++ "\n\n"⟩
      | .ok command =>
        match Options.ofArguments arguments >>= execute parse read isTerminal command with
        | .ok report => .success report
        | .error error => .failure error

/-- A run with settings in JSON. -/
def run (read : Reader) (isTerminal : Bool) (arguments : List String) : Outcome :=
  runWith SettingsParser.json read isTerminal arguments

/-- The sources that a run may ask for, in the order in which it does. -/
def sources : List String → List Source
  | [] => []
  | name :: arguments =>
    match Command.ofName name, Options.ofArguments arguments with
    | .ok _, .ok options =>
      (options.input.map Source.ofInput).toList ++ (options.config.map Source.file).toList
    | _, _ => []

end QueryHighlight.CommandLine
