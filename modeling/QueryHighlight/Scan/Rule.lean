import QueryHighlight.Scan.Literal
import QueryHighlight.Scan.Name
import QueryHighlight.Scan.Numeral

/-!
The rules of the scanner. A rule looks at the rest of a line and may claim some characters of it;
in either state the rules are tried in order and the first that matches decides. Where none does,
one character is an error between tokens, and content inside a string literal.
-/

namespace QueryHighlight.Scan
open Text

/-- What a rule claims: how many characters, under which tag, and the state behind them. -/
structure Match where
  tag : Tag
  size : Nat
  state : State := .start
  deriving DecidableEq, Repr

abbrev Rule := List Char → Option Match

/-- A comment takes the rest of the line, unless a line terminator is hidden in it. -/
def commentRule (comments : Bool) : Rule
  | [] => none
  | c :: rest =>
    if comments && c == '#' && !rest.any isTerminator then
      some { tag := .comment, size := rest.length + 1 }
    else none

/-- A quote opens a literal only if a character other than a line terminator follows it. -/
def openerAt (size : Nat) : Rule
  | q :: c :: _ =>
    if isTerminator c then none
    else (Quote.ofChar? q).map fun quote =>
      { tag := .stringOpen, size := size, state := .string quote }
  | _ => none

/-- An opener is a quote, or the letter `i` and a quote for text that ignores case. -/
def openerRule : Rule
  | [] => none
  | c :: rest => if c = 'i' then openerAt 2 rest else openerAt 1 (c :: rest)

def numeralRule : Rule := fun rest =>
  (numeral? rest).map fun (tag, size) => { tag := tag, size := size }

def nameRule : Rule := fun rest =>
  (nameSize? rest).map fun size => { tag := .identifier, size := size }

def isOpenBracket (c : Char) : Bool := c == '(' || c == '[' || c == '{'

def isCloseBracket (c : Char) : Bool := c == ')' || c == ']' || c == '}'

def bracketRule : Rule
  | [] => none
  | c :: _ =>
    if isOpenBracket c then some { tag := .bracketOpen, size := 1 }
    else if isCloseBracket c then some { tag := .bracketClose, size := 1 }
    else none

def blankRule : Rule := fun rest =>
  let size := (rest.takeWhile isBlank).length
  if 0 < size then some { tag := .whitespace, size := size } else none

/-- The rules between tokens, in the order in which they are tried. -/
def startRules (comments : Bool) : List Rule :=
  [commentRule comments, openerRule, numeralRule, nameRule, bracketRule, blankRule]

/-- Between tokens a character that no rule claims is an error of its own. -/
def startMatch (comments : Bool) (rest : List Char) : Match :=
  ((startRules comments).findSome? fun rule => rule rest).getD { tag := .invalid, size := 1 }

def escapeRule (quote : Quote) : Rule := fun rest =>
  (escapeSize? rest).map fun size =>
    { tag := .stringEscape, size := size, state := .string quote }

def continuationRule (quote : Quote) : Rule := fun rest =>
  if isContinuation rest then
    some { tag := .stringContinuation, size := 1, state := .string quote }
  else none

def closerRule (quote : Quote) : Rule
  | [] => none
  | c :: _ => if c = quote.char then some { tag := .stringClose, size := 1 } else none

/-- The rules inside a literal. -/
def stringRules (quote : Quote) : List Rule :=
  [escapeRule quote, continuationRule quote, closerRule quote]

/-- Inside a literal everything that no rule claims is content. -/
def stringMatch (quote : Quote) (rest : List Char) : Match :=
  ((stringRules quote).findSome? fun rule => rule rest).getD
    { tag := .stringContent, size := contentSize quote rest, state := .string quote }

end QueryHighlight.Scan
