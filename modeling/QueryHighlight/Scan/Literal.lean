import QueryHighlight.Scan.State
import QueryHighlight.Text.Classes

/-!
The body of a string literal. A backslash that starts no escape and does not end the line is
content like any other character; such a backslash is called dead here, all others are live.
-/

namespace QueryHighlight.Scan
open Text

/-- The text starts with `count` characters of a class. -/
def startsWithRun (isMember : Char → Bool) : Nat → List Char → Bool
  | 0, _ => true
  | _ + 1, [] => false
  | count + 1, c :: rest => isMember c && startsWithRun isMember count rest

/-- Characters that a backslash turns into an escape of two. -/
def isSimpleEscape (c : Char) : Bool :=
  c == '\\' || c == 'a' || c == 'b' || c == 'f' || c == 'n' || c == 'r' || c == 't' || c == 'v' ||
    c == '\'' || c == '"'

/-- Length of the escape sequence at the head of a text: `\x` with two hexadecimal digits, three
octal digits, one simple character, `\U` with eight digits or `\u` with four. -/
def escapeSize? : List Char → Option Nat
  | backslash :: c :: rest =>
    if backslash ≠ '\\' then none
    else if isSimpleEscape c then some 2
    else if c = 'x' ∧ startsWithRun isHexDigit 2 rest then some 4
    else if startsWithRun isOctalDigit 3 (c :: rest) then some 4
    else if c = 'U' ∧ startsWithRun isHexDigit 8 rest then some 10
    else if c = 'u' ∧ startsWithRun isHexDigit 4 rest then some 6
    else none
  | _ => none

/-- A backslash at the end of the line, which carries the literal over to the next line. -/
def isContinuation : List Char → Bool
  | [c] => c == '\\'
  | _ => false

/-- The head of the text is content of a literal in the given quotes. -/
def isContent (quote : Quote) : List Char → Bool
  | [] => false
  | c :: rest =>
    c != quote.char && (escapeSize? (c :: rest)).isNone && !isContinuation (c :: rest)

/-- Length of the run of content at the head of a text. -/
def contentSize (quote : Quote) : List Char → Nat
  | [] => 0
  | c :: rest => if isContent quote (c :: rest) then contentSize quote rest + 1 else 0

end QueryHighlight.Scan
