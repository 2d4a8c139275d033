/-!
The character classes that the query language and its configuration refer to. Words, digits and
name characters are ASCII; the two classes of white space are not, and they differ: the blanks of
a query follow the pattern engine of the query editor, the spaces that a configured word must not
contain follow the Unicode property White_Space.
-/

namespace QueryHighlight.Text

/-- Characters that a word boundary separates from all others. -/
def isWord (c : Char) : Bool := c.isAlphanum || c == '_'

def isNameStart (c : Char) : Bool := c.isAlpha || c == '_' || c == '$'

/-- A name goes on over `$`, which is no word character. -/
def isNamePart (c : Char) : Bool := isWord c || c == '$'

def isHexDigit (c : Char) : Bool :=
  c.isDigit || 'a' ≤ c && c ≤ 'f' || 'A' ≤ c && c ≤ 'F'

def isOctalDigit (c : Char) : Bool := '0' ≤ c && c ≤ '7'

/-- Characters that a comment and the first character of a string must not be. -/
def isTerminator (c : Char) : Bool :=
  c == '\n' || c == '\r' || c == '\u2028' || c == '\u2029'

/-- White space between the tokens of a query. -/
def isBlank (c : Char) : Bool :=
  c == ' ' || '\t' ≤ c && c ≤ '\r' || c == '\u00a0' || c == '\u1680' ||
    '\u2000' ≤ c && c ≤ '\u200a' || c == '\u2028' || c == '\u2029' || c == '\u202f' ||
    c == '\u205f' || c == '\u3000' || c == '\ufeff'

/-- The Unicode property White_Space. It has U+0085, which is no blank, and lacks U+FEFF. -/
def isSpace (c : Char) : Bool :=
  c == ' ' || '\t' ≤ c && c ≤ '\r' || c == '\u0085' || c == '\u00a0' || c == '\u1680' ||
    '\u2000' ≤ c && c ≤ '\u200a' || c == '\u2028' || c == '\u2029' || c == '\u202f' ||
    c == '\u205f' || c == '\u3000'

theorem isNamePart_of_isNameStart {c : Char} (starts : isNameStart c = true) :
    isNamePart c = true := by
  simp only [isNameStart, isNamePart, isWord, Char.isAlphanum, Bool.or_eq_true] at *
  rcases starts with (letter | underscore) | dollar
  · exact .inl (.inl (.inl letter))
  · exact .inl (.inr underscore)
  · exact .inr dollar

end QueryHighlight.Text
