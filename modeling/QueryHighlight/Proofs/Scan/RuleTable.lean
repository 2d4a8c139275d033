import QueryHighlight.Proofs.Pattern.Run
import QueryHighlight.Scan.Rule

/-!
The rules between tokens as an ordered table of regular expressions. The first rule that matches
at a place decides, and of its matches the one that a backtracking engine prefers. The classes of
the table are the ones that the scanner tests its characters with.
-/

namespace QueryHighlight.Scan
open Text

/-- A class in brackets: ranges of characters, both ends included. -/
def inClass (ranges : List (Char × Char)) (c : Char) : Bool :=
  ranges.any fun (first, last) => first ≤ c && c ≤ last

namespace Pattern

def oneOf (ranges : List (Char × Char)) : Pattern := one (inClass ranges)

/-- Any character but a line terminator. -/
def dot : Pattern :=
  one fun c => !inClass [('\n', '\n'), ('\r', '\r'), ('\u2028', '\u2029')] c

/-- Any character at all. -/
def anything : Pattern := one fun _ => true

/-- `#.*$` -/
def comment : Pattern := group .comment (seq (literal '#') (seq (star dot) lineEnd))

/-- `i?"(?=.)` and the same with the other quote. -/
def opener (quote : Quote) : Pattern :=
  group .stringOpen (seq (optional (literal 'i')) (seq (literal quote.char) (lookahead dot)))

/-- `[0-9]` -/
def digit : Pattern := oneOf [('0', '9')]

/-- `[0-9]*\.[0-9]+|[0-9]+\.` -/
def pointed : Pattern :=
  either (seq (star digit) (seq (literal '.') (plus digit))) (seq (plus digit) (literal '.'))

/-- `[eE][+-]?[0-9]+` -/
def exponent : Pattern :=
  seq (oneOf [('e', 'e'), ('E', 'E')]) (seq (optional (oneOf [('+', '+'), ('-', '-')])) (plus digit))

/-- A number with an exponent, or else one with a point. -/
def float : Pattern := group .float (either (seq (either pointed (plus digit)) exponent) pointed)

/-- `[1-9][0-9]*|0` -/
def decimal : Pattern := either (seq (oneOf [('1', '9')]) (star digit)) (literal '0')

/-- `[0-9A-Fa-f]` -/
def hexDigit : Pattern := oneOf [('0', '9'), ('A', 'F'), ('a', 'f')]

/-- `0[xX][0-9A-Fa-f]+` -/
def hexadecimal : Pattern :=
  seq (literal '0') (seq (oneOf [('x', 'x'), ('X', 'X')]) (plus hexDigit))

/-- Either notation with `[lL]\b` behind it. -/
def longInteger : Pattern :=
  group .longInteger
    (seq (either decimal hexadecimal) (seq (oneOf [('l', 'l'), ('L', 'L')]) wordBoundary))

/-- Either notation with `\b` behind it; the notation that matched names the tag. -/
def wholeNumber : Pattern :=
  seq (either (group .integer decimal) (group .hexInteger hexadecimal)) wordBoundary

/-- `[A-Za-z0-9_$]` -/
def namePart : Pattern :=
  oneOf [('A', 'Z'), ('a', 'z'), ('0', '9'), ('_', '_'), ('$', '$')]

/-- `[A-Za-z_$][A-Za-z0-9_$]*\b` -/
def name : Pattern :=
  group .identifier
    (seq (oneOf [('A', 'Z'), ('a', 'z'), ('_', '_'), ('$', '$')]) (seq (star namePart) wordBoundary))

def openBracket : Pattern := group .bracketOpen (oneOf [('(', '('), ('[', '['), ('\x7b', '\x7b')])

def closeBracket : Pattern := group .bracketClose (oneOf [(')', ')'), (']', ']'), ('\x7d', '\x7d')])

/-- `\s` as the pattern engine of the query editor reads it. -/
def blank : Pattern :=
  oneOf [('\t', '\r'), (' ', ' '), ('\u00a0', '\u00a0'), ('\u1680', '\u1680'),
    ('\u2000', '\u200a'), ('\u2028', '\u2029'), ('\u202f', '\u202f'), ('\u205f', '\u205f'),
    ('\u3000', '\u3000'), ('\ufeff', '\ufeff')]

def blanks : Pattern := group .whitespace (plus blank)

def invalid : Pattern := group .invalid anything

end Pattern

open Pattern

/-- The rules in the order in which they are tried. -/
def ruleTable (comments : Bool) : List Pattern :=
  (if comments then [comment] else []) ++
    [opener .double, opener .single, float, longInteger, wholeNumber, name, openBracket,
      closeBracket, blanks, invalid]

/-- Where the first rule that matches prefers to end. -/
def firstEnding (comments : Bool) (place : Place) : Option Place :=
  (ruleTable comments).findSome? fun rule => rule.preferred place

/-- Tag and length in bytes of what the table makes of a line behind its first characters. -/
def tableMatch (comments : Bool) (before rest : List Char) : Option (Tag × Nat) :=
  let place : Place := { before := before.reverse, after := rest }
  (firstEnding comments place).bind fun ending =>
    ending.tag.map fun tag => (tag, ending.offset - place.offset)

theorem inClass_cons (first last : Char) (ranges : List (Char × Char)) (c : Char) :
    inClass ((first, last) :: ranges) c =
      (decide (first ≤ c) && decide (c ≤ last) || inClass ranges c) := rfl

theorem inClass_nil (c : Char) : inClass [] c = false := rfl

/-- A range of one character. -/
theorem between_self (only c : Char) :
    (decide (only ≤ c) && decide (c ≤ only)) = (c == only) := by
  rw [Bool.eq_iff_iff, Bool.and_eq_true, decide_eq_true_eq, decide_eq_true_eq, beq_iff_eq]
  constructor
  · intro bounds
    exact Char.le_antisymm bounds.2 bounds.1
  · rintro rfl
    exact ⟨Char.le_refl _, Char.le_refl _⟩

theorem between_separators (c : Char) :
    (decide ('\u2028' ≤ c) && decide (c ≤ '\u2029')) = (c == '\u2028' || c == '\u2029') := by
  rw [Bool.eq_iff_iff]
  simp only [Bool.and_eq_true, Bool.or_eq_true, decide_eq_true_eq, beq_iff_eq, Char.le_def,
    UInt32.le_iff_toNat_le, ← Char.val_inj, ← UInt32.toNat_inj]
  rw [show '\u2028'.val.toNat = 8232 from rfl, show '\u2029'.val.toNat = 8233 from rfl]
  omega

theorem isAlpha_eq_between (c : Char) :
    c.isAlpha = (decide ('A' ≤ c) && decide (c ≤ 'Z') || decide ('a' ≤ c) && decide (c ≤ 'z')) := by
  have upper : c.isUpper = decide ('A' ≤ c ∧ c ≤ 'Z') := rfl
  have lower : c.isLower = (decide ('a' ≤ c) && decide (c ≤ 'z')) := rfl
  show (c.isUpper || c.isLower) = _
  rw [upper, lower, Bool.decide_and]

theorem isDigit_eq_between (c : Char) : c.isDigit = (decide ('0' ≤ c) && decide (c ≤ '9')) := rfl

theorem inClass_digit : inClass [('0', '9')] = Char.isDigit := by
  funext c
  rw [inClass_cons, inClass_nil, Bool.or_false, isDigit_eq_between]

theorem inClass_leadingDigit (c : Char) :
    inClass [('1', '9')] c = (c.isDigit && c != '0') := by
  rw [inClass_cons, inClass_nil, Bool.or_false, isDigit_eq_between, Bool.eq_iff_iff]
  simp only [Bool.and_eq_true, decide_eq_true_eq, bne_iff_ne, ne_eq, Char.le_def,
    UInt32.le_iff_toNat_le, ← Char.val_inj, ← UInt32.toNat_inj]
  rw [show '0'.val.toNat = 48 from rfl, show '1'.val.toNat = 49 from rfl]
  omega

theorem inClass_hexDigit : inClass [('0', '9'), ('A', 'F'), ('a', 'f')] = isHexDigit := by
  funext c
  simp only [inClass_cons, inClass_nil, Bool.or_false, isHexDigit, isDigit_eq_between]
  ac_rfl

theorem inClass_nameStart :
    inClass [('A', 'Z'), ('a', 'z'), ('_', '_'), ('$', '$')] = isNameStart := by
  funext c
  simp only [inClass_cons, inClass_nil, between_self, isNameStart, isAlpha_eq_between,
    Bool.or_false, Bool.or_assoc]

theorem inClass_namePart :
    inClass [('A', 'Z'), ('a', 'z'), ('0', '9'), ('_', '_'), ('$', '$')] = isNamePart := by
  funext c
  simp only [inClass_cons, inClass_nil, between_self, isNamePart, isWord, Char.isAlphanum,
    isAlpha_eq_between, isDigit_eq_between, Bool.or_false, Bool.or_assoc]

theorem inClass_terminator :
    inClass [('\n', '\n'), ('\r', '\r'), ('\u2028', '\u2029')] = isTerminator := by
  funext c
  simp only [inClass_cons, inClass_nil, between_self, between_separators, isTerminator,
    Bool.or_false, Bool.or_assoc]

theorem inClass_blank :
    inClass [('\t', '\r'), (' ', ' '), ('\u00a0', '\u00a0'), ('\u1680', '\u1680'),
      ('\u2000', '\u200a'), ('\u2028', '\u2029'), ('\u202f', '\u202f'), ('\u205f', '\u205f'),
      ('\u3000', '\u3000'), ('\ufeff', '\ufeff')] = isBlank := by
  funext c
  simp only [inClass_cons, inClass_nil, between_self, between_separators, isBlank, Bool.or_false]
  ac_rfl

theorem inClass_exponentMark : inClass [('e', 'e'), ('E', 'E')] = isExponentMark := by
  funext c
  simp only [inClass_cons, inClass_nil, between_self, isExponentMark, Bool.or_false]

theorem inClass_sign : inClass [('+', '+'), ('-', '-')] = isSign := by
  funext c
  simp only [inClass_cons, inClass_nil, between_self, isSign, Bool.or_false]

end QueryHighlight.Scan
