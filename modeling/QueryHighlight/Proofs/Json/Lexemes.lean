import QueryHighlight.Json.Value
import QueryHighlight.Proofs.Json.Reader
import QueryHighlight.Proofs.Json.Spelling
import QueryHighlight.Proofs.Text.Decimal

/-!
The pieces of printed JSON that nothing is nested in. A whole number is read back in front of
everything that it could not go on with, a string whatever characters it has, and indentation is
white space.
-/

namespace QueryHighlight.Json
open Text

/-- No number can go on with the text. -/
def EndsNumber (text : List Char) : Prop :=
  ∀ c, text.head? = some c → c.isDigit = false ∧ c ≠ '.' ∧ c ≠ 'e' ∧ c ≠ 'E'

theorem endsNumber_nil : EndsNumber [] := by
  intro c absent
  cases absent

theorem endsNumber_cons {c : Char} (noDigit : c.isDigit = false) (noPoint : c ≠ '.')
    (noMark : c ≠ 'e' ∧ c ≠ 'E') (rest : List Char) : EndsNumber (c :: rest) := by
  intro d same
  obtain rfl := Option.some.inj same
  exact ⟨noDigit, noPoint, noMark⟩

variable {rest : List Char}

theorem EndsNumber.endsDigits (ends : EndsNumber rest) : EndsDigits rest :=
  fun c first => (ends c first).1

theorem digitsAt_toDigits (ends : EndsDigits rest) (number : Nat) :
    digitsAt (Nat.toDigits 10 number ++ rest) = .ok (Nat.toDigits 10 number, rest) := by
  rw [digitsAt, spanDigits, takeWhile_toDigits ends, dropWhile_toDigits ends]
  split
  next same => exact absurd (Prod.mk.inj same).1 Nat.toDigits_ne_nil
  next same => exact absurd (Prod.mk.inj same).1 Nat.toDigits_ne_nil
  next => rfl

theorem wholeDigits_toDigits (ends : EndsDigits rest) (number : Nat) :
    wholeDigits (Nat.toDigits 10 number ++ rest) = .ok (Nat.toDigits 10 number, rest) := by
  have noZero : ¬((Nat.toDigits 10 number).head? = some '0' ∧
      1 < (Nat.toDigits 10 number).length) := by
    rintro ⟨zero, long⟩
    rw [eq_zero_of_head?_toDigits zero] at long
    exact absurd long (by decide)
  rw [wholeDigits, digitsAt_toDigits ends]
  exact if_neg noZero

theorem fractionDigits_of_ends (ends : EndsNumber rest) :
    fractionDigits rest = .ok (none, rest) := by
  unfold fractionDigits
  split
  next behind => exact absurd rfl (ends '.' rfl).2.1
  next => rfl

theorem exponentDigits_of_ends (ends : EndsNumber rest) :
    exponentDigits rest = .ok (none, rest) := by
  cases rest with
  | nil => rfl
  | cons c behind =>
    obtain ⟨-, -, noLower, noUpper⟩ := ends c rfl
    exact if_neg (not_or.mpr ⟨noLower, noUpper⟩)

theorem readNumber_toDigits (ends : EndsNumber rest) (number : Nat) :
    readNumber (Nat.toDigits 10 number ++ rest) = some (.number number 0, rest) := by
  obtain ⟨c, others, same, isDigit⟩ := exists_toDigits_eq_cons number
  have unsigned : ((Nat.toDigits 10 number ++ rest).head? == some '-') = false := by
    rw [same]
    refine beq_eq_false_iff_ne.mpr fun minus => ?_
    obtain rfl := Option.some.inj minus
    exact absurd isDigit (by decide)
  have whole := congrArg Except.toOption (wholeDigits_toDigits ends.endsDigits number)
  have fraction := congrArg Except.toOption (fractionDigits_of_ends ends)
  have exponent := congrArg Except.toOption (exponentDigits_of_ends ends)
  rw [Except.toOption] at whole fraction exponent
  rw [readNumber]
  simp only [unsigned, Bool.false_eq_true, if_false, whole, fraction, exponent, Option.bind_eq_bind,
    Option.bind_some]
  simp [exponentPower, Nat.ofDigitChars_ten_toDigits]

/-- The code of a control character has two digits, and zeros in front of them. -/
theorem controlEscape_eq {c : Char} (control : c.toNat < 0x20) :
    controlEscape c =
      ['\\', 'u', '0', '0', Nat.digitChar (c.toNat / 16), Nat.digitChar (c.toNat % 16)] := by
  have every : ∀ code < 0x20,
      List.replicate (4 - (Nat.toDigits 16 code).length) '0' ++ Nat.toDigits 16 code =
        ['0', '0', Nat.digitChar (code / 16), Nat.digitChar (code % 16)] := by
    decide
  exact congrArg (fun digits => '\\' :: 'u' :: digits) (every c.toNat control)

theorem spellsCode_control {code : Nat} (control : code < 0x20) :
    SpellsCode code ['0', '0', Nat.digitChar (code / 16), Nat.digitChar (code % 16)] := by
  have first : code / 4096 = 0 := by omega
  have second : code / 256 % 16 = 0 := by omega
  have third : code / 16 % 16 = code / 16 := by omega
  have bound : code / 16 < 16 ∧ code % 16 < 16 := by omega
  have zero : SpellsDigit 0 '0' := ⟨by decide, .inl rfl⟩
  rw [SpellsCode, first, second, third]
  exact .cons zero (.cons zero (.cons ⟨bound.1, .inl rfl⟩ (.cons ⟨bound.2, .inl rfl⟩ .nil)))

/-- A character is printed in one of the ways to write it. -/
theorem spellsChar_encodedChar (c : Char) : SpellsChar c (encodedChar c) := by
  unfold encodedChar
  split
  next same => subst same; exact .short (by decide)
  next noQuote =>
  split
  next same => subst same; exact .short (by decide)
  next noBackslash =>
  split
  next same => subst same; exact .short (by decide)
  split
  next same => subst same; exact .short (by decide)
  split
  next same => subst same; exact .short (by decide)
  split
  next same => subst same; exact .short (by decide)
  split
  next same => subst same; exact .short (by decide)
  split
  next control =>
    rw [controlEscape_eq control]
    exact .code (spellsCode_control control)
  next printable => exact .itself ⟨noQuote, noBackslash, Nat.not_lt.mp printable⟩

theorem spellsEach_encoded (characters : List Char) :
    SpellsEach SpellsChar characters (characters.flatMap encodedChar) := by
  refine ⟨characters.map encodedChar, ?_, rfl⟩
  rw [List.forall₂_map_right_iff, List.forall₂_same]
  exact fun c _ => spellsChar_encodedChar c

theorem spellsSymbol_encodedString (text : String) :
    SpellsSymbol (.string text) (encodedString text) :=
  .string (spellsEach_encoded text.toList)

theorem stringBody_encoded (characters rest : List Char) :
    stringBody (characters.flatMap encodedChar ++ '"' :: rest) = .ok (characters, rest) :=
  stringBody_spelled (spellsEach_encoded characters) rest

/-- A string behind the quote that opens its printed form. -/
theorem readText_encoded (text : String) (rest : List Char) :
    readText (text.toList.flatMap encodedChar ++ '"' :: rest) = some (text, rest) := by
  have body := congrArg Except.toOption (stringBody_encoded text.toList rest)
  rw [readText, body]
  exact congrArg (fun text => some (text, rest)) String.ofList_toList

theorem skipSeparators_newline (depth : Nat) (rest : List Char) :
    skipSeparators (newline depth ++ rest) = skipSeparators rest := by
  have blank : ∀ c ∈ newline depth, isSeparator c = true := by
    intro c member
    rcases List.mem_cons.mp member with rfl | space
    · decide
    · rw [List.eq_of_mem_replicate space]
      decide
  exact List.dropWhile_append_of_pos blank

theorem skipSeparators_cons {c : Char} (plain : isSeparator c = false) (rest : List Char) :
    skipSeparators (c :: rest) = c :: rest :=
  List.dropWhile_cons_of_neg (Bool.eq_false_iff.mp plain)

theorem isSeparator_of_isDigit {c : Char} (isDigit : c.isDigit = true) : isSeparator c = false := by
  refine Bool.eq_false_iff.mpr fun separator => ?_
  simp only [isSeparator, Bool.or_eq_true, beq_iff_eq] at separator
  rcases separator with ((rfl | rfl) | rfl) | rfl <;> exact absurd isDigit (by decide)

theorem endsNumber_newline (depth : Nat) (rest : List Char) :
    EndsNumber (newline depth ++ rest) := endsNumber_cons (by decide) (by decide) (by decide) _

theorem endsNumber_comma (rest : List Char) : EndsNumber (',' :: rest) :=
  endsNumber_cons (by decide) (by decide) (by decide) _

theorem readPlain_toDigits (ends : EndsNumber rest) (number : Nat) {c : Char} {others : List Char}
    (same : Nat.toDigits 10 number = c :: others) (isDigit : c.isDigit = true) :
    readPlain c (others ++ rest) = some (.number number 0, rest) := by
  have noWord : word? c = none := by
    unfold word?
    split
    next letter => subst letter; exact absurd isDigit (by decide)
    split
    next letter => subst letter; exact absurd isDigit (by decide)
    split
    next letter => subst letter; exact absurd isDigit (by decide)
    rfl
  rw [readPlain, noWord]
  show readNumber ((c :: others) ++ rest) = _
  rw [← same]
  exact readNumber_toDigits ends number

end QueryHighlight.Json
