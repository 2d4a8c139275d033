import Mathlib.Data.List.Forall2
import QueryHighlight.Json.Lexeme

/-!
The ways to write JSON down. A character of a string stands there as itself or as an escape, by a
letter or by its code in hexadecimal digits of either case, and blanks may come before every symbol.
Whatever way is taken, the lexemes are those of the symbols. Numbers are left out: where one ends
depends on what comes behind it, and nothing that is written here has any.
-/

namespace QueryHighlight.Json
open Text

/-- The text spells one item after the other. -/
def SpellsEach {α : Type} (spells : α → List Char → Prop) (items : List α) (text : List Char) :
    Prop :=
  ∃ pieces, List.Forall₂ spells items pieces ∧ pieces.flatten = text

/-- A hexadecimal digit, in lower or in upper case. -/
def SpellsDigit (value : Nat) (c : Char) : Prop :=
  value < 16 ∧ (c = Nat.digitChar value ∨ c = (Nat.digitChar value).toUpper)

/-- The four digits of a code. -/
def SpellsCode (code : Nat) (digits : List Char) : Prop :=
  List.Forall₂ SpellsDigit [code / 4096, code / 256 % 16, code / 16 % 16, code % 16] digits

instance (value : Nat) (c : Char) : Decidable (SpellsDigit value c) :=
  inferInstanceAs (Decidable (_ ∧ _))

instance (code : Nat) (digits : List Char) : Decidable (SpellsCode code digits) :=
  inferInstanceAs (Decidable (List.Forall₂ _ _ _))

/-- The letters that may stand behind a backslash, each with the character that it stands for. -/
def shortEscapes : List (Char × Char) :=
  [('"', '"'), ('\\', '\\'), ('/', '/'), ('b', '\x08'), ('f', '\x0c'), ('n', '\n'), ('r', '\r'),
    ('t', '\t')]

/-- The ways to write a character in a string. -/
inductive SpellsChar (c : Char) : List Char → Prop
  | itself (plain : c ≠ '"' ∧ c ≠ '\\' ∧ 0x20 ≤ c.toNat) : SpellsChar c [c]
  | short {letter : Char} (known : (letter, c) ∈ shortEscapes) : SpellsChar c ['\\', letter]
  | code {digits : List Char} (spelled : SpellsCode c.toNat digits) :
    SpellsChar c ('\\' :: 'u' :: digits)
  /-- The code of a character beyond the basic plane, in two halves. -/
  | halves {first second : List Char} (beyond : 0x10000 ≤ c.toNat)
    (high : SpellsCode (0xd800 + (c.toNat - 0x10000) / 1024) first)
    (low : SpellsCode (0xdc00 + (c.toNat - 0x10000) % 1024) second) :
    SpellsChar c ('\\' :: 'u' :: first ++ '\\' :: 'u' :: second)

inductive SpellsSymbol : Symbol → List Char → Prop
  | openObject : SpellsSymbol .openObject ['\x7b']
  | closeObject : SpellsSymbol .closeObject ['\x7d']
  | openList : SpellsSymbol .openList ['[']
  | closeList : SpellsSymbol .closeList [']']
  | colon : SpellsSymbol .colon [':']
  | comma : SpellsSymbol .comma [',']
  | null : SpellsSymbol .null ['n', 'u', 'l', 'l']
  | true : SpellsSymbol (.bool true) ['t', 'r', 'u', 'e']
  | false : SpellsSymbol (.bool false) ['f', 'a', 'l', 's', 'e']
  | string {text : String} {body : List Char} (spelled : SpellsEach SpellsChar text.toList body) :
    SpellsSymbol (.string text) ('"' :: body ++ ['"'])

def IsBlank (c : Char) : Prop := c = ' ' ∨ c = '\n' ∨ c = '\t' ∨ c = '\r'

instance (c : Char) : Decidable (IsBlank c) := inferInstanceAs (Decidable (_ ∨ _))

/-- A symbol behind any number of blanks. -/
inductive SpellsSpaced (symbol : Symbol) : List Char → Prop
  | bare {spelling : List Char} (spelled : SpellsSymbol symbol spelling) :
    SpellsSpaced symbol spelling
  | behind {c : Char} {spelling : List Char} (blank : IsBlank c)
    (spelled : SpellsSpaced symbol spelling) : SpellsSpaced symbol (c :: spelling)

theorem isSeparator_iff {c : Char} : isSeparator c = true ↔ IsBlank c := by
  simp only [isSeparator, IsBlank, Bool.or_eq_true, beq_iff_eq, or_assoc]

section

variable {c : Char} {spelling digits text : List Char}

theorem SpellsDigit.value_eq {value : Nat} (spelled : SpellsDigit value c) :
    isHexDigit c = true ∧ hexDigitValue c = value := by
  have every : ∀ value < 16,
      (isHexDigit (Nat.digitChar value) = true ∧ hexDigitValue (Nat.digitChar value) = value) ∧
        isHexDigit (Nat.digitChar value).toUpper = true ∧
          hexDigitValue (Nat.digitChar value).toUpper = value := by
    decide
  obtain ⟨bound, rfl | rfl⟩ := spelled
  · exact (every value bound).1
  · exact (every value bound).2

theorem hexQuad_spelled {code : Nat} (spelled : SpellsCode code digits) (rest : List Char) :
    hexQuad (digits ++ rest) = .ok (code, rest) := by
  obtain _ | ⟨first, _ | ⟨second, _ | ⟨third, _ | ⟨fourth, _ | _⟩⟩⟩⟩ := spelled
  have bound : code / 4096 < 16 := first.1
  have value : code / 4096 * 4096 + code / 256 % 16 * 256 + code / 16 % 16 * 16 + code % 16 =
      code := by
    omega
  simp only [List.cons_append, List.nil_append, hexQuad, first.value_eq, second.value_eq,
    third.value_eq, fourth.value_eq, value, Bool.and_self, if_true]

/-- A character is no half of another. -/
theorem not_surrogate (c : Char) :
    isHighSurrogate c.toNat = false ∧ isLowSurrogate c.toNat = false := by
  have valid : c.toNat < 0xd800 ∨ 0xdfff < c.toNat ∧ c.toNat < 0x110000 := c.valid
  simp only [isHighSurrogate, isLowSurrogate, Bool.and_eq_false_iff, decide_eq_false_iff_not]
  omega

theorem escape_code (spelled : SpellsCode c.toNat digits) (rest : List Char) :
    escape ('u' :: digits ++ rest) = .ok (c, rest) := by
  obtain ⟨noHigh, noLow⟩ := not_surrogate c
  rw [List.cons_append, escape, if_pos rfl, unicodeEscape, hexQuad_spelled spelled]
  simp only [bind, Except.bind, noHigh, noLow, Bool.false_eq_true, if_false, Char.ofNat_toNat]
  rfl

/-- Two codes that stand for one character, whichever it is. -/
theorem escape_surrogates {high low : Nat} {first second : List Char}
    (isHigh : isHighSurrogate high = true) (isLow : isLowSurrogate low = true)
    (firstSpelled : SpellsCode high first) (secondSpelled : SpellsCode low second)
    (rest : List Char) :
    escape ('u' :: first ++ '\\' :: 'u' :: second ++ rest) =
      .ok (Char.ofNat (0x10000 + (high - 0xd800) * 1024 + (low - 0xdc00)), rest) := by
  have notLow : isLowSurrogate high = false := by
    simp only [isHighSurrogate, Bool.and_eq_true, decide_eq_true_eq] at isHigh
    simp only [isLowSurrogate, Bool.and_eq_false_iff, decide_eq_false_iff_not]
    omega
  have behind : secondHalf high ('\\' :: 'u' :: second ++ rest) =
      .ok (Char.ofNat (0x10000 + (high - 0xd800) * 1024 + (low - 0xdc00)), rest) := by
    rw [List.cons_append, List.cons_append, secondHalf, if_neg (by decide)]
    simp only [ne_eq, not_true_eq_false, if_false, hexQuad_spelled secondSpelled, bind, Except.bind,
      isLow, if_true]
    rfl
  rw [List.append_assoc, List.cons_append, escape, if_pos rfl, unicodeEscape,
    hexQuad_spelled firstSpelled]
  simp only [bind, Except.bind, notLow, isHigh, Bool.false_eq_true, if_false, if_true, behind]

theorem escape_halves {first second : List Char} (beyond : 0x10000 ≤ c.toNat)
    (high : SpellsCode (0xd800 + (c.toNat - 0x10000) / 1024) first)
    (low : SpellsCode (0xdc00 + (c.toNat - 0x10000) % 1024) second) (rest : List Char) :
    escape ('u' :: first ++ '\\' :: 'u' :: second ++ rest) = .ok (c, rest) := by
  have valid : c.toNat < 0xd800 ∨ 0xdfff < c.toNat ∧ c.toNat < 0x110000 := c.valid
  have isHigh : isHighSurrogate (0xd800 + (c.toNat - 0x10000) / 1024) = true := by
    simp only [isHighSurrogate, Bool.and_eq_true, decide_eq_true_eq]
    omega
  have isLow : isLowSurrogate (0xdc00 + (c.toNat - 0x10000) % 1024) = true := by
    simp only [isLowSurrogate, Bool.and_eq_true, decide_eq_true_eq]
    omega
  have whole : 0x10000 + (0xd800 + (c.toNat - 0x10000) / 1024 - 0xd800) * 1024 +
      (0xdc00 + (c.toNat - 0x10000) % 1024 - 0xdc00) = c.toNat := by
    omega
  rw [escape_surrogates isHigh isLow high low, whole, Char.ofNat_toNat]

/-- Puts a character in front of what was read of a string. -/
def inFront (c : Char) : List Char × List Char → List Char × List Char :=
  fun (characters, behind) => (c :: characters, behind)

theorem stringBody_escape {after : List Char} (known : escape text = .ok (c, after)) :
    stringBody ('\\' :: text) = (stringBody after).map (inFront c) := by
  rw [stringBody, if_neg (by decide), if_pos rfl]
  split
  next problem failed => rw [known] at failed; cases failed
  next other behind found =>
    rw [known] at found
    obtain ⟨rfl, rfl⟩ := Prod.mk.inj (Except.ok.inj found)
    rfl

theorem stringBody_spelledChar (spelled : SpellsChar c spelling) (rest : List Char) :
    stringBody (spelling ++ rest) = (stringBody rest).map (inFront c) := by
  cases spelled with
  | itself plain =>
    obtain ⟨noQuote, noBackslash, printable⟩ := plain
    rw [List.singleton_append, stringBody, if_neg noQuote, if_neg noBackslash,
      if_neg (Nat.not_lt.mpr printable)]
    rfl
  | @short letter known =>
    have every : ∀ escaped ∈ shortEscapes,
        escaped.1 ≠ 'u' ∧ shortEscape? escaped.1 = some escaped.2 := by
      decide
    obtain ⟨noCode, value⟩ := every _ known
    apply stringBody_escape
    show escape (letter :: rest) = _
    rw [escape, if_neg noCode, value]
  | code spelled => exact stringBody_escape (escape_code spelled rest)
  | halves beyond high low => exact stringBody_escape (escape_halves beyond high low rest)

theorem stringBody_spelled {characters body : List Char}
    (spelled : SpellsEach SpellsChar characters body) (rest : List Char) :
    stringBody (body ++ '"' :: rest) = .ok (characters, rest) := by
  obtain ⟨pieces, each, rfl⟩ := spelled
  induction each with
  | nil =>
    rw [List.flatten_nil, List.nil_append, stringBody]
    exact if_pos rfl
  | cons here _ ih =>
    rw [List.flatten_cons, List.append_assoc, stringBody_spelledChar here, ih]
    rfl

/-- A spelled symbol starts with a character of its own, and is read before whatever comes. -/
theorem symbol_spelled {found : Symbol} (spelled : SpellsSymbol found spelling) :
    ∃ c others, spelling = c :: others ∧ isSeparator c = false ∧
      ∀ rest, symbol c (others ++ rest) = .ok (found, rest) := by
  cases spelled with
  | openObject => exact ⟨_, _, rfl, by decide, fun _ => rfl⟩
  | closeObject => exact ⟨_, _, rfl, by decide, fun _ => rfl⟩
  | openList => exact ⟨_, _, rfl, by decide, fun _ => rfl⟩
  | closeList => exact ⟨_, _, rfl, by decide, fun _ => rfl⟩
  | colon => exact ⟨_, _, rfl, by decide, fun _ => rfl⟩
  | comma => exact ⟨_, _, rfl, by decide, fun _ => rfl⟩
  | null => exact ⟨_, _, rfl, by decide, fun _ => rfl⟩
  | true => exact ⟨_, _, rfl, by decide, fun _ => rfl⟩
  | false => exact ⟨_, _, rfl, by decide, fun _ => rfl⟩
  | @string text body spelled =>
    refine ⟨'"', body ++ ['"'], rfl, by decide, ?_⟩
    intro rest
    show (stringBody (body ++ ['"'] ++ rest)).map _ = _
    rw [List.append_assoc, List.singleton_append, stringBody_spelled spelled]
    exact congrArg (fun text => Except.ok (Symbol.string text, rest)) String.ofList_toList

theorem lexemes_blank (blank : IsBlank c) (rest : List Char) :
    lexemes (c :: rest) = lexemes rest := by
  rw [lexemes, if_pos (isSeparator_iff.mpr blank)]

theorem lexemes_blanks {blanks : List Char} (blank : ∀ c ∈ blanks, IsBlank c) :
    lexemes blanks = [] := by
  induction blanks with
  | nil => rw [lexemes]
  | cons c others ih =>
    obtain ⟨here, there⟩ := List.forall_mem_cons.mp blank
    rw [lexemes_blank here, ih there]

theorem lexemes_symbol {found : Symbol} {behind : List Char} (starts : isSeparator c = false)
    (read : symbol c text = .ok (found, behind)) :
    lexemes (c :: text) =
      ⟨found, byteLength (c :: text), byteLength behind⟩ :: lexemes behind := by
  rw [lexemes, if_neg (Bool.eq_false_iff.mp starts)]
  split
  next problem failed => rw [read] at failed; cases failed
  next other after same =>
    rw [read] at same
    obtain ⟨rfl, rfl⟩ := Prod.mk.inj (Except.ok.inj same)
    rfl

theorem lexemes_spelledSpaced {found : Symbol} (spelled : SpellsSpaced found spelling)
    (rest : List Char) :
    ∃ lexeme, lexeme.symbol = found ∧ lexemes (spelling ++ rest) = lexeme :: lexemes rest := by
  induction spelled with
  | bare spelled =>
    obtain ⟨c, others, rfl, starts, reads⟩ := symbol_spelled spelled
    rw [List.cons_append, lexemes_symbol starts (reads rest)]
    exact ⟨_, rfl, rfl⟩
  | behind blank _ ih =>
    rw [List.cons_append, lexemes_blank blank]
    exact ih

/-- The lexemes of a spelling are those of its symbols, before whatever comes. -/
theorem lexemes_spelled {symbols : List Symbol} (spelled : SpellsEach SpellsSpaced symbols text)
    (rest : List Char) :
    ∃ read, read.map Lexeme.symbol = symbols ∧ lexemes (text ++ rest) = read ++ lexemes rest := by
  obtain ⟨pieces, each, rfl⟩ := spelled
  induction each with
  | nil => exact ⟨[], rfl, rfl⟩
  | cons here _ ih =>
    obtain ⟨later, symbols_eq, later_eq⟩ := ih
    obtain ⟨lexeme, symbol_eq, lexemes_eq⟩ := lexemes_spelledSpaced here (List.flatten _ ++ rest)
    refine ⟨lexeme :: later, ?_, ?_⟩
    · rw [List.map_cons, symbol_eq, symbols_eq]
    · rw [List.flatten_cons, List.append_assoc, lexemes_eq, later_eq, List.cons_append]

end

end QueryHighlight.Json
