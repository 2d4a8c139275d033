import QueryHighlight.Json.Lexeme

/-!
A reader of JSON texts: all of JSON, with white space anywhere between lexemes, every escape in
strings and every spelling of a number. What a text says is kept as it is there: numbers are exact,
and the fields of an object stay in their order. The pieces that nothing is nested in are read as
everywhere else in this library.
-/

namespace QueryHighlight.Json

/-- What a JSON text says. A number is its significand times a power of ten. -/
inductive Data where
  | null
  | bool (value : Bool)
  | number (significand power : Int)
  | string (value : String)
  | list (items : List Data)
  | object (fields : List (String × Data))

/-- The value of a field of an object that has one field of that name. -/
def Data.field? (name : String) : Data → Option Data
  | .object fields =>
    match fields.filter fun (key, _) => key == name with
    | [(_, value)] => some value
    | _ => none
  | _ => none

def skipSeparators (text : List Char) : List Char := text.dropWhile isSeparator

/-- The power of ten that the sign and the digits of an exponent stand for. -/
def exponentPower : Option (Bool × List Char) → Int
  | none => 0
  | some (down, digits) =>
    let power : Int := Nat.ofDigitChars 10 digits 0
    if down then -power else power

/-- A number at the head of a text, and the text behind it. -/
def readNumber (text : List Char) : Option (Data × List Char) := do
  let negative := text.head? == some '-'
  let (whole, rest) ← (wholeDigits (if negative then text.drop 1 else text)).toOption
  let (fraction, rest) ← (fractionDigits rest).toOption
  let (exponent, rest) ← (exponentDigits rest).toOption
  let decimals := fraction.getD []
  let magnitude : Int := Nat.ofDigitChars 10 (whole ++ decimals) 0
  let power := exponentPower exponent - decimals.length
  return (.number (if negative then -magnitude else magnitude) power, rest)

/-- A string behind its opening quote. -/
def readText (text : List Char) : Option (String × List Char) :=
  (stringBody text).toOption.map fun (characters, rest) => (String.ofList characters, rest)

/-- One of the three words whose first letter is given, or else a number. -/
def readPlain (c : Char) (rest : List Char) : Option (Data × List Char) :=
  match word? c with
  | some (.bool value, letters) =>
    (finishWord letters rest).toOption.map fun behind => (.bool value, behind)
  | some (_, letters) => (finishWord letters rest).toOption.map fun behind => (.null, behind)
  | none => readNumber (c :: rest)

/-- Goes on behind an item of a list or a field of an object: the given bracket closes the row, and
behind a comma there is more of it. -/
def readBehind {α : Type} (close : Char) (item : α) (text : List Char)
    (more : List Char → Option (List α × List Char)) : Option (List α × List Char) :=
  match skipSeparators text with
  | [] => none
  | c :: rest =>
    if c = close then some ([item], rest)
    else if c = ',' then (more rest).map fun (items, behind) => (item :: items, behind)
    else none

mutual

/-- A value at the head of a text, and the text behind it. -/
def readValue : Nat → List Char → Option (Data × List Char)
  | 0, _ => none
  | fuel + 1, text =>
    match skipSeparators text with
    | [] => none
    | '"' :: rest => (readText rest).map fun (value, behind) => (.string value, behind)
    | '[' :: rest =>
      match skipSeparators rest with
      | ']' :: behind => some (.list [], behind)
      | items => (readItems fuel items).map fun (items, behind) => (.list items, behind)
    | '\x7b' :: rest =>
      match skipSeparators rest with
      | '\x7d' :: behind => some (.object [], behind)
      | fields => (readFields fuel fields).map fun (fields, behind) => (.object fields, behind)
    | c :: rest => readPlain c rest

/-- The items of a list from one of them on, up to the closing bracket. -/
def readItems : Nat → List Char → Option (List Data × List Char)
  | 0, _ => none
  | fuel + 1, text => do
    let (item, rest) ← readValue fuel text
    readBehind ']' item rest (readItems fuel)

/-- The fields of an object from one of them on, up to the closing brace. -/
def readFields : Nat → List Char → Option (List (String × Data) × List Char)
  | 0, _ => none
  | fuel + 1, text =>
    match skipSeparators text with
    | '"' :: rest => do
      let (key, rest) ← readText rest
      match skipSeparators rest with
      | ':' :: rest => do
        let (value, rest) ← readValue fuel rest
        readBehind '\x7d' (key, value) rest (readFields fuel)
      | _ => none
    | _ => none

end

/-- What a text says that is one JSON value and white space around it. Two calls at most are nested
for each character that is taken, so the reader never runs out of fuel. -/
def read (text : String) : Option Data := do
  let (data, rest) ← readValue (2 * text.length + 1) text.toList
  if rest.all isSeparator then some data else none

end QueryHighlight.Json
