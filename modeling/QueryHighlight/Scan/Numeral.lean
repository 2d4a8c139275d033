import QueryHighlight.Scan.Tag
import QueryHighlight.Text.Classes

/-!
Number literals. A float is tried before an integer and an exponent before a bare point, so that
`1.5e3` and `1e10` are one literal while `1.5e` stops at `1.5`. An integer has to end on a word
boundary, which a float need not: `12ab` is no literal at all, and `007` is none either because
a decimal integer with a leading zero is the zero alone.
-/

namespace QueryHighlight.Scan
open Text

def digitCount (rest : List Char) : Nat := (rest.takeWhile Char.isDigit).length

def hexDigitCount (rest : List Char) : Nat := (rest.takeWhile isHexDigit).length

/-- A word boundary stands `size` characters ahead, for a positive `size`. The end of the line
counts as a character that belongs to no word. -/
def boundaryAt (rest : List Char) (size : Nat) : Bool :=
  (rest[size - 1]?).any isWord != (rest[size]?).any isWord

/-- Length of `1.5`, `.5` or `3.`: digits on one side of the point at least. -/
def pointSize? (rest : List Char) : Option Nat :=
  let whole := digitCount rest
  match rest.drop whole with
  | '.' :: after =>
    let fraction := digitCount after
    if 0 < whole ∨ 0 < fraction then some (whole + 1 + fraction) else none
  | _ => none

/-- Length of the digits of a whole number. -/
def wholeSize? (rest : List Char) : Option Nat :=
  let whole := digitCount rest
  if 0 < whole then some whole else none

def isExponentMark (c : Char) : Bool := c == 'e' || c == 'E'

def isSign (c : Char) : Bool := c == '+' || c == '-'

/-- Length of an exponent such as `e10`, `E+3` or `e-7`. -/
def exponentSize? : List Char → Option Nat
  | [] => none
  | mark :: rest =>
    if isExponentMark mark then
      let sign := if rest.head?.any isSign then 1 else 0
      let digits := digitCount (rest.drop sign)
      if 0 < digits then some (1 + sign + digits) else none
    else none

/-- The given length, longer by the exponent that follows, if one does. -/
def withExponent? (rest : List Char) (size : Nat) : Option Nat :=
  (exponentSize? (rest.drop size)).map (size + ·)

/-- Length of a float literal. -/
def floatSize? (rest : List Char) : Option Nat :=
  let point := pointSize? rest
  point.bind (withExponent? rest) <|> (wholeSize? rest).bind (withExponent? rest) <|> point

/-- Length of `0` or of digits that do not start with a zero. -/
def decimalSize? : List Char → Option Nat
  | [] => none
  | c :: rest => if c = '0' then some 1 else if c.isDigit then some (digitCount rest + 1) else none

/-- Length of a hexadecimal integer such as `0x1F`. -/
def hexSize? : List Char → Option Nat
  | zero :: mark :: rest =>
    if zero = '0' ∧ (mark = 'x' ∨ mark = 'X') ∧ 0 < hexDigitCount rest then
      some (2 + hexDigitCount rest)
    else none
  | _ => none

/-- The lengths at which an integer may end, the decimal reading first. -/
def integerSizes (rest : List Char) : List (Tag × Nat) :=
  (decimalSize? rest).toList.map (Tag.integer, ·) ++ (hexSize? rest).toList.map (Tag.hexInteger, ·)

/-- A suffix that makes an integer long, with a word boundary behind it. -/
def longSuffixAt (rest : List Char) (size : Nat) : Bool :=
  (rest[size]?).any (fun c => c == 'l' || c == 'L') && boundaryAt rest (size + 1)

/-- Tag and length of an integer literal; a long one is tried first in either notation. -/
def integer? (rest : List Char) : Option (Tag × Nat) :=
  ((integerSizes rest).find? fun (_, size) => longSuffixAt rest size).map
    (fun (_, size) => (Tag.longInteger, size + 1)) <|>
  (integerSizes rest).find? fun (_, size) => boundaryAt rest size

/-- Tag and length of a number literal. -/
def numeral? (rest : List Char) : Option (Tag × Nat) :=
  (floatSize? rest).map (Tag.float, ·) <|> integer? rest

end QueryHighlight.Scan
