import QueryHighlight.Json.Number
import QueryHighlight.Text.Classes

/-!
The lexemes of a JSON text: brackets, marks, words, numbers and strings, each with its value. The
first piece that is no lexeme is kept as the last of the list together with its problem, since a
reader may have a complaint of its own about an earlier lexeme or about the mere presence of this
one.
-/

namespace QueryHighlight.Json
open Text

inductive Symbol where
  | openObject
  | closeObject
  | openList
  | closeList
  | colon
  | comma
  | null
  | bool (value : Bool)
  | number (value : Number)
  | string (value : String)
  /-- A word or number that is spelled wrong. -/
  | broken (problem : Problem)
  | brokenString (problem : Problem)
  /-- A character that starts no lexeme. -/
  | stray
  deriving DecidableEq, Repr

/-- A lexeme, with the bytes of the text left from its first and behind its last byte. -/
structure Lexeme where
  symbol : Symbol
  before : Nat
  after : Nat
  deriving DecidableEq, Repr

/-- White space between lexemes. -/
def isSeparator (c : Char) : Bool := c == ' ' || c == '\n' || c == '\t' || c == '\r'

/-- The rest of a word once its first letter has told which word it is. -/
def finishWord : List Char → List Char → Except Problem (List Char)
  | [], rest => .ok rest
  | _ :: _, [] => .error ⟨.endOfValue, 0⟩
  | letter :: letters, c :: rest =>
    if c = letter then finishWord letters rest
    else .error ⟨.expectedWord, byteLength (c :: rest) - 1⟩

/-- The character that a backslash and a letter stand for. -/
def shortEscape? (c : Char) : Option Char :=
  if c = '"' ∨ c = '\\' ∨ c = '/' then some c
  else if c = 'b' then some '\x08'
  else if c = 'f' then some '\x0c'
  else if c = 'n' then some '\n'
  else if c = 'r' then some '\r'
  else if c = 't' then some '\t'
  else none

def hexDigitValue (c : Char) : Nat :=
  if c.isDigit then c.toNat - '0'.toNat
  else if 'a' ≤ c then c.toNat - 'a'.toNat + 10
  else c.toNat - 'A'.toNat + 10

/-- The value of four hexadecimal digits. -/
def hexQuad : List Char → Except Problem (Nat × List Char)
  | first :: second :: third :: fourth :: rest =>
    if isHexDigit first && isHexDigit second && isHexDigit third && isHexDigit fourth then
      .ok (hexDigitValue first * 4096 + hexDigitValue second * 256 + hexDigitValue third * 16 +
        hexDigitValue fourth, rest)
    else .error ⟨.invalidEscape, byteLength (first :: second :: third :: fourth :: rest) - 4⟩
  | short =>
    if 4 ≤ byteLength short then .error ⟨.invalidEscape, byteLength short - 4⟩
    else .error ⟨.endOfString, 0⟩

/-- Codes of the first halves of characters beyond the basic plane. -/
def isHighSurrogate (code : Nat) : Bool := 0xd800 ≤ code && code ≤ 0xdbff

def isLowSurrogate (code : Nat) : Bool := 0xdc00 ≤ code && code ≤ 0xdfff

/-- The second half of a character whose first half was `high`. -/
def secondHalf (high : Nat) : List Char → Except Problem (Char × List Char)
  | [] => .error ⟨.endOfString, 0⟩
  | backslash :: rest =>
    if backslash ≠ '\\' then .error ⟨.unfinishedEscape, byteLength (backslash :: rest) - 1⟩
    else match rest with
      | [] => .error ⟨.endOfString, 0⟩
      | mark :: digits =>
        if mark ≠ 'u' then .error ⟨.unfinishedEscape, byteLength rest - 1⟩
        else do
          let (low, rest) ← hexQuad digits
          if isLowSurrogate low then
            return (Char.ofNat (0x10000 + (high - 0xd800) * 1024 + (low - 0xdc00)), rest)
          throw ⟨.loneSurrogate, byteLength rest⟩

/-- The character that the code behind `\u` names, of two codes if it needs them. -/
def unicodeEscape (text : List Char) : Except Problem (Char × List Char) := do
  let (code, rest) ← hexQuad text
  if isLowSurrogate code then throw ⟨.loneSurrogate, byteLength rest⟩
  if isHighSurrogate code then secondHalf code rest
  else return (Char.ofNat code, rest)

/-- The character that an escape stands for, behind its backslash. -/
def escape : List Char → Except Problem (Char × List Char)
  | [] => .error ⟨.endOfString, 0⟩
  | c :: rest =>
    if c = 'u' then unicodeEscape rest
    else match shortEscape? c with
      | some value => .ok (value, rest)
      | none => .error ⟨.invalidEscape, byteLength (c :: rest) - 1⟩

theorem length_hexQuad {text rest : List Char} {code : Nat}
    (found : hexQuad text = .ok (code, rest)) : rest.length < text.length := by
  unfold hexQuad at found
  split at found
  · split at found
    · simp only [Except.ok.injEq, Prod.mk.injEq] at found
      simp only [← found.2, List.length_cons]
      omega
    · simp at found
  · split at found <;> simp at found

theorem length_secondHalf {text rest : List Char} {high : Nat} {c : Char}
    (found : secondHalf high text = .ok (c, rest)) : rest.length < text.length := by
  unfold secondHalf at found
  split at found
  · simp at found
  · split at found
    · simp at found
    · split at found
      · simp at found
      · split at found
        · simp at found
        next digits _ =>
          cases quad : hexQuad digits with
          | error problem => simp [quad, bind, Except.bind] at found
          | ok pair =>
            have shorter := length_hexQuad quad
            simp only [quad, bind, Except.bind] at found
            split at found
            · simp only [pure, Except.pure, Except.ok.injEq, Prod.mk.injEq] at found
              simp only [← found.2, List.length_cons]
              omega
            · simp [throw, throwThe, MonadExceptOf.throw] at found

theorem length_unicodeEscape {text rest : List Char} {c : Char}
    (found : unicodeEscape text = .ok (c, rest)) : rest.length < text.length := by
  unfold unicodeEscape at found
  cases quad : hexQuad text with
  | error problem => simp [quad, bind, Except.bind] at found
  | ok pair =>
    have shorter := length_hexQuad quad
    simp only [quad, bind, Except.bind] at found
    split at found
    · simp [throw, throwThe, MonadExceptOf.throw] at found
    · split at found
      · exact Nat.lt_trans (length_secondHalf found) shorter
      · simp only [pure, Except.pure, Except.ok.injEq, Prod.mk.injEq] at found
        simpa only [← found.2] using shorter

theorem length_escape {text rest : List Char} {c : Char} (found : escape text = .ok (c, rest)) :
    rest.length < text.length := by
  unfold escape at found
  split at found
  · simp at found
  · split at found
    · exact Nat.lt_succ_of_lt (length_unicodeEscape found)
    · split at found
      · simp only [Except.ok.injEq, Prod.mk.injEq] at found
        simp [← found.2]
      · simp at found

/-- The characters of a string up to its closing quote, and the text behind it. -/
def stringBody : List Char → Except Problem (List Char × List Char)
  | [] => .error ⟨.endOfString, 0⟩
  | c :: rest =>
    if c = '"' then .ok ([], rest)
    else if c = '\\' then
      match _found : escape rest with
      | .error problem => .error problem
      | .ok (value, after) =>
        (stringBody after).map fun (characters, behind) => (value :: characters, behind)
    else if c.toNat < 0x20 then .error ⟨.controlCharacter, byteLength rest⟩
    else (stringBody rest).map fun (characters, behind) => (c :: characters, behind)
termination_by text => text.length
decreasing_by
  · exact Nat.lt_succ_of_lt (length_escape ‹_›)
  · simp

/-- The symbols of one character. -/
def mark? (c : Char) : Option Symbol :=
  if c = '\x7b' then some .openObject
  else if c = '\x7d' then some .closeObject
  else if c = '[' then some .openList
  else if c = ']' then some .closeList
  else if c = ':' then some .colon
  else if c = ',' then some .comma
  else none

/-- The word that a letter starts, and its other letters. -/
def word? (c : Char) : Option (Symbol × List Char) :=
  if c = 'n' then some (.null, ['u', 'l', 'l'])
  else if c = 't' then some (.bool true, ['r', 'u', 'e'])
  else if c = 'f' then some (.bool false, ['a', 'l', 's', 'e'])
  else none

/-- The symbol that starts with a given character, and the text behind it. -/
def symbol (c : Char) (rest : List Char) : Except Problem (Symbol × List Char) :=
  match mark? c, word? c with
  | some mark, _ => .ok (mark, rest)
  | none, some (word, letters) => (finishWord letters rest).map fun behind => (word, behind)
  | none, none =>
    if c = '"' then
      (stringBody rest).map fun (characters, behind) =>
        (.string (String.ofList characters), behind)
    else if c = '-' then (number true rest).map fun (value, behind) => (.number value, behind)
    else if c.isDigit then
      (number false (c :: rest)).map fun (value, behind) => (.number value, behind)
    else .ok (.stray, rest)

theorem length_finishWord {letters text rest : List Char}
    (found : finishWord letters text = .ok rest) : rest.length ≤ text.length := by
  fun_induction finishWord letters text with
  | case1 rest => simp_all
  | case2 => simp at found
  | case3 letters c text ih => exact Nat.le_succ_of_le (ih found)
  | case4 => simp at found

theorem length_stringBody {text characters rest : List Char}
    (found : stringBody text = .ok (characters, rest)) : rest.length ≤ text.length := by
  fun_induction stringBody text generalizing characters with
  | case1 => simp at found
  | case2 rest => simp_all
  | case3 => simp at found
  | case4 text value after escaped _ ih =>
    obtain ⟨⟨others, behind⟩, read, same⟩ := map_eq_ok.mp found
    obtain ⟨_, rfl⟩ := Prod.mk.inj same
    have shorter := length_escape escaped
    have tail := ih read
    simp only [List.length_cons]
    omega
  | case5 => simp at found
  | case6 c text _ _ _ ih =>
    obtain ⟨⟨others, behind⟩, read, same⟩ := map_eq_ok.mp found
    obtain ⟨_, rfl⟩ := Prod.mk.inj same
    exact Nat.le_succ_of_le (ih read)

theorem length_symbol {c : Char} {text rest : List Char} {found : Symbol}
    (read : symbol c text = .ok (found, rest)) : rest.length ≤ text.length := by
  unfold symbol at read
  split at read
  · simp_all
  · obtain ⟨behind, finished, same⟩ := map_eq_ok.mp read
    obtain ⟨_, rfl⟩ := Prod.mk.inj same
    exact length_finishWord finished
  · split at read
    · obtain ⟨⟨characters, behind⟩, body, same⟩ := map_eq_ok.mp read
      obtain ⟨_, rfl⟩ := Prod.mk.inj same
      exact length_stringBody body
    · split at read
      · obtain ⟨⟨value, behind⟩, digits, same⟩ := map_eq_ok.mp read
        obtain ⟨_, rfl⟩ := Prod.mk.inj same
        exact Nat.le_of_lt (length_number digits)
      · split at read
        · obtain ⟨⟨value, behind⟩, digits, same⟩ := map_eq_ok.mp read
          obtain ⟨_, rfl⟩ := Prod.mk.inj same
          exact Nat.le_of_lt_succ (length_number digits)
        · simp_all

/-- The lexemes of a text, up to its end or to the first piece that is none. -/
def lexemes : List Char → List Lexeme
  | [] => []
  | c :: rest =>
    if isSeparator c then lexemes rest
    else
      let before := byteLength (c :: rest)
      match _found : symbol c rest with
      | .error problem =>
        [⟨if c = '"' then .brokenString problem else .broken problem, before, problem.left⟩]
      | .ok (found, behind) => ⟨found, before, byteLength behind⟩ :: lexemes behind
termination_by text => text.length
decreasing_by
  · simp
  · exact Nat.lt_succ_of_le (length_symbol ‹_›)

end QueryHighlight.Json
