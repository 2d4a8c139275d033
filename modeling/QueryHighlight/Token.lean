import QueryHighlight.Span
import QueryHighlight.Text.Quoted

/-!
Highlight tokens: pieces of a line with the kind that decides how they are shown. A kind has a
scope name, which hosts and renderers look their styles up by.
-/

namespace QueryHighlight

inductive Kind where
  | comment
  | string
  | stringEscape
  | numeric
  | constant
  | keyword
  | function
  | identifier
  | bracketOpen
  | bracketClose
  | whitespace
  | error
  deriving DecidableEq, Repr, Inhabited

namespace Kind

def all : List Kind :=
  [comment, string, stringEscape, numeric, constant, keyword, function, identifier, bracketOpen,
    bracketClose, whitespace, error]

def scope : Kind → String
  | comment => "comment"
  | string => "string"
  | stringEscape => "string.escape"
  | numeric => "constant.numeric"
  | constant => "constant.language"
  | keyword => "keyword"
  | function => "support.function"
  | identifier => "identifier"
  | bracketOpen => "paren.open"
  | bracketClose => "paren.close"
  | whitespace => "whitespace"
  | error => "error"

/-- Place in the list of all kinds, for hosts that keep kinds as numbers. -/
def code (kind : Kind) : Nat := all.idxOf kind

def ofScope? (scope : String) : Option Kind := all.find? fun kind => kind.scope == scope

/-- A scope name stands for one kind only. -/
theorem ofScope?_scope (kind : Kind) : ofScope? kind.scope = some kind := by
  cases kind <;> decide

end Kind

/-- A piece of a line. The span counts bytes from the start of the line. -/
structure Token where
  kind : Kind
  text : String
  span : Span
  deriving DecidableEq, Repr

/-- A token on one line: its kind, its text in quotes and where it stands. -/
def Token.description (token : Token) : String :=
  token.kind.scope ++ "(" ++ Text.quoted token.text ++ ") @ " ++ token.span.text

end QueryHighlight
