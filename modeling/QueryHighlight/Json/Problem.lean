import QueryHighlight.Text.Place

/-!
What can be wrong with a JSON text. A problem is found while reading from left to right, and the
first one ends the reading, so its cause comes with the number of bytes left unread behind it.
-/

namespace QueryHighlight.Json
open Text

inductive Cause where
  | endOfValue
  | endOfObject
  | endOfList
  | endOfString
  | expectedValue
  | expectedWord
  | expectedColon
  | expectedCommaOrBrace
  | expectedCommaOrBracket
  | trailingComma
  | trailingCharacters
  | keyNotString
  | invalidNumber
  | numberOutOfRange
  | invalidEscape
  | unfinishedEscape
  | loneSurrogate
  | controlCharacter
  | unknownField (name : String) (known : List String)
  | duplicateField (name : String)
  | invalidType (found expected : String)
  | invalidLength (count : Nat) (expected : String)
  deriving DecidableEq, Repr

/-- Whether the text stops too early, is no JSON, or is JSON of the wrong shape. -/
inductive Category where
  | eof
  | syntactic
  | data
  deriving DecidableEq, Repr

namespace Cause

def category : Cause → Category
  | endOfValue | endOfObject | endOfList | endOfString => .eof
  | unknownField .. | duplicateField _ | invalidType .. | invalidLength .. => .data
  | _ => .syntactic

/-- A name between grave accents. -/
def accented (name : String) : String := "\x60" ++ name ++ "\x60"

def message : Cause → String
  | endOfValue => "EOF while parsing a value"
  | endOfObject => "EOF while parsing an object"
  | endOfList => "EOF while parsing a list"
  | endOfString => "EOF while parsing a string"
  | expectedValue => "expected value"
  | expectedWord => "expected ident"
  | expectedColon => "expected " ++ accented ":"
  | expectedCommaOrBrace => "expected " ++ accented "," ++ " or " ++ accented "\x7d"
  | expectedCommaOrBracket => "expected " ++ accented "," ++ " or " ++ accented "]"
  | trailingComma => "trailing comma"
  | trailingCharacters => "trailing characters"
  | keyNotString => "key must be a string"
  | invalidNumber => "invalid number"
  | numberOutOfRange => "number out of range"
  | invalidEscape => "invalid escape"
  | unfinishedEscape => "unexpected end of hex escape"
  | loneSurrogate => "lone leading surrogate in hex escape"
  | controlCharacter => "control character (\\u0000-\\u001F) found while parsing a string"
  | unknownField name known =>
    "unknown field " ++ accented name ++ ", expected one of " ++
      String.intercalate ", " (known.map accented)
  | duplicateField name => "duplicate field " ++ accented name
  | invalidType found expected => "invalid type: " ++ found ++ ", expected " ++ expected
  | invalidLength count expected =>
    "invalid length " ++ toString count ++ ", expected " ++ expected

end Cause

/-- A cause, and how many bytes of the text are left behind the place where it showed. -/
structure Problem where
  cause : Cause
  left : Nat
  deriving DecidableEq, Repr

/-- The place of a problem in the text that it was found in. -/
def Problem.placeIn (problem : Problem) (text : List Char) : Place :=
  Place.ofOffset text (byteLength text - problem.left)

theorem map_eq_ok {α β ε : Type} {change : α → β} {read : Except ε α} {result : β} :
    read.map change = .ok result ↔ ∃ value, read = .ok value ∧ change value = result := by
  cases read <;> simp [Except.map]

end QueryHighlight.Json
