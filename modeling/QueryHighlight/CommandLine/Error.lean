import QueryHighlight.Config.Error

/-!
What can go wrong in a run of the command line, and what is said about it.
-/

namespace QueryHighlight.CommandLine

/-- Why a text could not be read; `system` carries the words and the code of the operating
system. -/
inductive ReadFailure where
  | notFound
  | invalidText
  | system (description : String) (code : Nat)
  deriving DecidableEq, Repr

def ReadFailure.message : ReadFailure → String
  | .notFound => "No such file or directory (os error 2)"
  | .invalidText => "stream did not contain valid UTF-8"
  | .system description code => description ++ " (os error " ++ toString code ++ ")"

inductive Error where
  | unknownCommand (name : String)
  | unknownOption (argument : String)
  | invalidColor (mode : String)
  | missingInput
  | extraInput (argument : String)
  | conflictingOptions
  | config (error : ConfigError)
  | unreadableConfig (path : String) (failure : ReadFailure)
  | unreadableInput (name : String) (failure : ReadFailure)
  | unwritable (description : String)
  deriving DecidableEq, Repr

def Error.message : Error → String
  | .unknownCommand name => "unknown command `" ++ name ++ "`"
  | .unknownOption argument => "unknown option `" ++ argument ++ "`"
  | .invalidColor mode =>
    "invalid color mode `" ++ mode ++ "` (expected `auto`, `always` or `never`)"
  | .missingInput => "missing input file (use `-` to read stdin)"
  | .extraInput argument =>
    "unexpected argument `" ++ argument ++ "`: only one input file is accepted"
  | .conflictingOptions =>
    "`--dialect` cannot be combined with `--config`; set `dialect` in the config file"
  | .config error => error.message
  | .unreadableConfig path failure =>
    "failed to read config file `" ++ path ++ "`: " ++ failure.message
  | .unreadableInput name failure => "failed to read `" ++ name ++ "`: " ++ failure.message
  | .unwritable description => "failed to write output: " ++ description

end QueryHighlight.CommandLine
