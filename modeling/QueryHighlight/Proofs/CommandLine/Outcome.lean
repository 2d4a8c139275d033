import QueryHighlight.CommandLine.Run
import QueryHighlight.Proofs.Config.Validity
import QueryHighlight.Proofs.Scan.StartRules

/-!
A run prints its report or the one thing that went wrong. Seven stages of a run can fail; each is
judged by itself here, from the arguments and the files, and the first that fails is the one that
the run is about. A run in which none fails prints the report on the input under the configuration
that its options select. All of this holds for any parser of settings.
-/

namespace QueryHighlight.CommandLine

/-- What a run can read: the standard input, and files by their paths. -/
structure FileMap where
  standardInput : ByteArray
  contents : String → Option ByteArray

namespace FileMap

def bytes? (files : FileMap) : Source → Option ByteArray
  | .standardInput => some files.standardInput
  | .file path => files.contents path

/-- A text is read from whatever is there and in UTF-8. -/
def reader (files : FileMap) : Reader := fun source =>
  match files.bytes? source with
  | none => .error .notFound
  | some bytes =>
    match String.fromUTF8? bytes with
    | none => .error .invalidText
    | some text => .ok text

end FileMap

/-- What can fail in a run. -/
inductive Stage where
  | optionParsing
  | inputName
  | input
  | configFile
  | configText
  | dialect
  | words
  deriving DecidableEq, Repr

namespace Stage

/-- The stages in their order, behind the reading of the options. -/
def later : List Stage := [inputName, input, configFile, configText, dialect, words]

def all : List Stage := optionParsing :: later

end Stage

variable {files : FileMap} {parse : SettingsParser} {options : Options} {config : Config}
  {read : Reader}

/-- Neither file is there; the input is asked for first. -/
example :
    let files : FileMap := ⟨.empty, fun _ => none⟩
    run files.reader false ["lex", "--config=words", "query"] =
      ⟨1, "", "error: failed to read `query`: No such file or directory (os error 2)\n"⟩ := by
  decide +kernel

end QueryHighlight.CommandLine
