/-!
The sorts of lexemes that a line falls into. Every tag has a code for hosts that keep tags in a
byte; the codes come in groups: identifiers and numbers below 16, pieces of strings from 16,
brackets from 80, trivia from 112, errors from 240 and the end of the line at 255.
-/

namespace QueryHighlight.Scan

inductive Tag where
  | identifier
  | integer
  | float
  | hexInteger
  | longInteger
  | stringOpen
  | stringContent
  | stringEscape
  | stringContinuation
  | stringClose
  | bracketOpen
  | bracketClose
  | whitespace
  | comment
  | invalid
  | endOfLine
  deriving DecidableEq, Repr

namespace Tag

def all : List Tag :=
  [identifier, integer, float, hexInteger, longInteger, stringOpen, stringContent, stringEscape,
    stringContinuation, stringClose, bracketOpen, bracketClose, whitespace, comment, invalid,
    endOfLine]

def name : Tag → String
  | identifier => "identifier"
  | integer => "integer"
  | float => "float"
  | hexInteger => "hex integer"
  | longInteger => "long integer"
  | stringOpen => "string opener"
  | stringContent => "string content"
  | stringEscape => "string escape"
  | stringContinuation => "line continuation"
  | stringClose => "string closer"
  | bracketOpen => "opening bracket"
  | bracketClose => "closing bracket"
  | whitespace => "whitespace"
  | comment => "comment"
  | invalid => "invalid character"
  | endOfLine => "end of line"

def code : Tag → Nat
  | identifier => 0
  | integer => 1
  | float => 2
  | hexInteger => 3
  | longInteger => 4
  | stringOpen => 16
  | stringContent => 17
  | stringEscape => 18
  | stringContinuation => 19
  | stringClose => 20
  | bracketOpen => 80
  | bracketClose => 81
  | whitespace => 112
  | comment => 113
  | invalid => 240
  | endOfLine => 255

def isNumeric : Tag → Bool
  | integer | float | hexInteger | longInteger => true
  | _ => false

/-- Escapes are no string pieces: they are shown in a style of their own. -/
def isStringPiece : Tag → Bool
  | stringOpen | stringContent | stringContinuation | stringClose => true
  | _ => false

end Tag

end QueryHighlight.Scan
