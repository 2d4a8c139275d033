/-!
JSON values and their printed form: one item or field to a line, two spaces for each level, no
space inside what is empty. Fields are printed in the order in which the value has them.
-/

namespace QueryHighlight.Json

inductive Value where
  | number (value : Nat)
  | string (value : String)
  | list (items : List Value)
  | object (fields : List (String × Value))

/-- A control character by its code, in four hexadecimal digits. -/
def controlEscape (c : Char) : List Char :=
  let digits := Nat.toDigits 16 c.toNat
  '\\' :: 'u' :: List.replicate (4 - digits.length) '0' ++ digits

/-- How a character is written in a string. Only control characters, the quote and the backslash
are not written as themselves. -/
def encodedChar (c : Char) : List Char :=
  if c = '"' then ['\\', '"']
  else if c = '\\' then ['\\', '\\']
  else if c = '\x08' then ['\\', 'b']
  else if c = '\x0c' then ['\\', 'f']
  else if c = '\n' then ['\\', 'n']
  else if c = '\r' then ['\\', 'r']
  else if c = '\t' then ['\\', 't']
  else if c.toNat < 0x20 then controlEscape c
  else [c]

def encodedString (text : String) : List Char :=
  '"' :: text.toList.flatMap encodedChar ++ ['"']

/-- A line feed and the indentation of a level. -/
def newline (depth : Nat) : List Char := '\n' :: List.replicate (2 * depth) ' '

mutual

/-- A value that stands at the given level. -/
def printed (depth : Nat) : Value → List Char
  | .number value => (toString value).toList
  | .string value => encodedString value
  | .list [] => ['[', ']']
  | .list (item :: items) =>
    '[' :: newline (depth + 1) ++ printed (depth + 1) item ++ printedItems (depth + 1) items ++
      newline depth ++ [']']
  | .object [] => ['\x7b', '\x7d']
  | .object ((key, value) :: fields) =>
    '\x7b' :: newline (depth + 1) ++ encodedString key ++ [':', ' '] ++ printed (depth + 1) value ++
      printedFields (depth + 1) fields ++ newline depth ++ ['\x7d']

/-- The items of a list behind the first. -/
def printedItems (depth : Nat) : List Value → List Char
  | [] => []
  | item :: items => ',' :: newline depth ++ printed depth item ++ printedItems depth items

/-- The fields of an object behind the first. -/
def printedFields (depth : Nat) : List (String × Value) → List Char
  | [] => []
  | (key, value) :: fields =>
    ',' :: newline depth ++ encodedString key ++ [':', ' '] ++ printed depth value ++
      printedFields depth fields

end

def Value.text (value : Value) : String := String.ofList (printed 0 value)

end QueryHighlight.Json
