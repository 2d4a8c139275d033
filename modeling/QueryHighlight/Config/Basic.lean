import QueryHighlight.Dialect
import QueryHighlight.Tokenizer

/-!
What can be set about a tokenizer. A configuration starts from a dialect and may replace any of its
parts. A word list is refused if it has an empty word or one with white space in it; words that no
name can ever spell are accepted, since they do no harm.
-/

namespace QueryHighlight

structure Config where
  comments : Bool
  keywords : WordSet
  functions : WordSet
  constants : WordSet
  deriving DecidableEq

/-- The word sets of a configuration, by what their words are. -/
inductive WordRole where
  | keywords
  | functions
  | constants
  deriving DecidableEq, Repr

def WordRole.name : WordRole → String
  | .keywords => "keywords"
  | .functions => "functions"
  | .constants => "constants"

/-- Why a configuration is refused. -/
inductive Refusal where
  | unknownDialect (name : String)
  | emptyWord (role : WordRole)
  | spacedWord (role : WordRole) (word : String)
  deriving DecidableEq, Repr

def Refusal.message : Refusal → String
  | .unknownDialect name => "unknown dialect `" ++ name ++ "` (expected `massmailer` or `mailing`)"
  | .emptyWord role => "empty word in the " ++ role.name ++ " set"
  | .spacedWord role word =>
    "word `" ++ word ++ "` in the " ++ role.name ++ " set contains whitespace"

def Dialect.ofName (name : String) : Except Refusal Dialect :=
  match Dialect.ofName? name with
  | some dialect => .ok dialect
  | none => .error (.unknownDialect name)

namespace Config

def ofDialect (dialect : Dialect) : Config where
  comments := dialect.comments
  keywords := .ofList dialect.keywords
  functions := .ofList functionWords
  constants := .ofList constantWords

instance : Inhabited Config := ⟨ofDialect default⟩

def words (config : Config) : WordRole → WordSet
  | .keywords => config.keywords
  | .functions => config.functions
  | .constants => config.constants

/-- What is wrong with a word, if anything is. -/
def fault? (role : WordRole) (word : String) : Option Refusal :=
  if word.isEmpty then some (.emptyWord role)
  else if word.toList.any Text.isSpace then some (.spacedWord role word)
  else none

/-- The first fault: keywords before functions before constants, and each in ascending order. -/
def firstFault? (config : Config) : Option Refusal :=
  [WordRole.keywords, .functions, .constants].findSome? fun role =>
    (config.words role).toList.findSome? (fault? role)

def validate (config : Config) : Except Refusal Unit :=
  match config.firstFault? with
  | some refusal => .error refusal
  | none => .ok ()

def vocabulary (config : Config) : Vocabulary where
  functions := config.functions
  constants := config.constants
  keywords := config.keywords

/-- The tokenizer of a configuration, valid or not. -/
def tokenizer (config : Config) : QueryTokenizer where
  comments := config.comments
  vocabulary := config.vocabulary

/-- The tokenizer of a valid configuration. -/
def build (config : Config) : Except Refusal QueryTokenizer := do
  config.validate
  return config.tokenizer

end Config

end QueryHighlight
