import QueryHighlight.Text.Classes
import QueryHighlight.Text.Marks
import QueryHighlight.Text.Unassigned

/-!
Texts shown in double quotes on one line. Whatever could not be read off the page is spelled out:
the quote and the backslash, line ends and tabs, and by its code point every character that is
invisible, unassigned or drawn on its neighbour. All other characters stand for themselves.
-/

namespace QueryHighlight.Text

def formatCharacters : Ranges :=
  [(0x00ad, 0x00ad), (0x0600, 0x0605), (0x061c, 0x061c), (0x06dd, 0x06dd), (0x070f, 0x070f),
    (0x0890, 0x0891), (0x08e2, 0x08e2), (0x180e, 0x180e), (0x200b, 0x200f), (0x202a, 0x202e),
    (0x2060, 0x2064), (0x2066, 0x206f), (0xfeff, 0xfeff), (0xfff9, 0xfffb), (0x110bd, 0x110bd),
    (0x110cd, 0x110cd), (0x13430, 0x1343f), (0x1bca0, 0x1bca3), (0x1d173, 0x1d17a),
    (0xe0001, 0xe0001), (0xe0020, 0xe007f)]

def privateUse : Ranges :=
  [(0xe000, 0xf8ff), (0xf0000, 0xffffd), (0x100000, 0x10fffd)]

/-- Spaces and separators other than the plain space. -/
def separators : Ranges :=
  [(0x00a0, 0x00a0), (0x1680, 0x1680), (0x2000, 0x200a), (0x2028, 0x2029), (0x202f, 0x202f),
    (0x205f, 0x205f), (0x3000, 0x3000)]

/-- Letters that stand for a missing letter of a Hangul syllable. They are letters by category, but
the only ones with the Unicode property Default_Ignorable_Code_Point: nothing is drawn for them. -/
def fillers : Ranges :=
  [(0x115f, 0x1160), (0x3164, 0x3164), (0xffa0, 0xffa0)]

def isControl (c : Char) : Bool := c.toNat < 0x20 || 0x7f ≤ c.toNat && c.toNat < 0xa0

/-- Characters that a quotation names by their code point. Printable ASCII is settled first. -/
def isHidden (c : Char) : Bool :=
  isControl c || 0x7f ≤ c.toNat &&
    (extendingMarks.has c || formatCharacters.has c || privateUse.has c || separators.has c ||
      fillers.has c || unassigned.has c)

/-- A code point in braces, in hexadecimal without padding. -/
def codePoint (c : Char) : List Char :=
  '\\' :: 'u' :: '\x7b' :: Nat.toDigits 16 c.toNat ++ ['\x7d']

def spelled (c : Char) : List Char :=
  if c = '"' then ['\\', '"']
  else if c = '\\' then ['\\', '\\']
  else if c = '\n' then ['\\', 'n']
  else if c = '\r' then ['\\', 'r']
  else if c = '\t' then ['\\', 't']
  else if c = '\x00' then ['\\', '0']
  else if isHidden c then codePoint c
  else [c]

def quotedChars (text : List Char) : List Char := '"' :: text.flatMap spelled ++ ['"']

def quoted (text : String) : String := String.ofList (quotedChars text.toList)

end QueryHighlight.Text
