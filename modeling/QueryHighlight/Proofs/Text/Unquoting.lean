import QueryHighlight.Json.Lexeme
import QueryHighlight.Proofs.Text.Decimal
import QueryHighlight.Text.Quoted

/-!
Quoted texts are read back. Every character is spelled so that it is found again, whatever follows,
and no spelling has a bare quote or a line feed in it: a quotation ends at the first bare quote, and
it stays on its line whatever its text looks like.
-/

namespace QueryHighlight.Text

/-- The number that hexadecimal digits stand for. -/
def hexNumber (digits : List Char) : Nat :=
  digits.foldl (fun value digit => 16 * value + Json.hexDigitValue digit) 0

/-- The character that is named behind a backslash, and the text behind its name. -/
def namedChar? : List Char → Option (Char × List Char)
  | '"' :: rest => some ('"', rest)
  | '\\' :: rest => some ('\\', rest)
  | 'n' :: rest => some ('\n', rest)
  | 'r' :: rest => some ('\r', rest)
  | 't' :: rest => some ('\t', rest)
  | '0' :: rest => some ('\x00', rest)
  | 'u' :: '\x7b' :: rest =>
    match rest.dropWhile isHexDigit with
    | '\x7d' :: behind => some (Char.ofNat (hexNumber (rest.takeWhile isHexDigit)), behind)
    | _ => none
  | _ => none

theorem length_namedChar? {text rest : List Char} {c : Char}
    (found : namedChar? text = some (c, rest)) : rest.length ≤ text.length := by
  unfold namedChar? at found
  split at found
  case h_7 behind =>
    split at found
    next after same =>
      have shorter := (List.dropWhile_sublist (l := behind) isHexDigit).length_le
      rw [same, List.length_cons] at shorter
      obtain ⟨-, rfl⟩ := Prod.mk.inj (Option.some.inj found)
      simp only [List.length_cons]
      omega
    next => cases found
  case h_8 => cases found
  all_goals
    obtain ⟨-, rfl⟩ := Prod.mk.inj (Option.some.inj found)
    exact Nat.le_succ _

/-- The text that is quoted up to the first bare quote, and what is behind that quote. -/
def unquoted : List Char → Option (List Char × List Char)
  | [] => none
  | c :: rest =>
    if c = '"' then some ([], rest)
    else if c = '\\' then
      match _found : namedChar? rest with
      | none => none
      | some (value, after) =>
        (unquoted after).map fun (characters, behind) => (value :: characters, behind)
    else (unquoted rest).map fun (characters, behind) => (c :: characters, behind)
termination_by text => text.length
decreasing_by
  · exact Nat.lt_succ_of_le (length_namedChar? ‹_›)
  · simp

/-- The sixteen digits are digits, and each stands for its number. -/
theorem digitChar_hex :
    ∀ digit < 16, isHexDigit (Nat.digitChar digit) = true ∧
      Json.hexDigitValue (Nat.digitChar digit) = digit := by
  decide

theorem isHexDigit_of_mem_toDigits {number : Nat} {c : Char}
    (member : c ∈ Nat.toDigits 16 number) : isHexDigit c = true := by
  induction number using Nat.strongRecOn with
  | ind number ih =>
    by_cases small : number < 16
    · rw [Nat.toDigits_of_lt_base small, List.mem_singleton] at member
      exact member ▸ (digitChar_hex number small).1
    · rw [Nat.toDigits_of_base_le (by decide) (Nat.le_of_not_lt small), List.mem_append,
        List.mem_singleton] at member
      rcases member with front | rfl
      · exact ih (number / 16) (by omega) front
      · exact (digitChar_hex (number % 16) (Nat.mod_lt _ (by decide))).1

theorem hexNumber_toDigits (number : Nat) : hexNumber (Nat.toDigits 16 number) = number := by
  induction number using Nat.strongRecOn with
  | ind number ih =>
    by_cases small : number < 16
    · rw [Nat.toDigits_of_lt_base small, hexNumber, List.foldl_cons, List.foldl_nil,
        (digitChar_hex number small).2]
      omega
    · have front := ih (number / 16) (by omega)
      rw [hexNumber] at front
      rw [Nat.toDigits_of_base_le (by decide) (Nat.le_of_not_lt small), hexNumber,
        List.foldl_append, front, List.foldl_cons, List.foldl_nil,
        (digitChar_hex (number % 16) (Nat.mod_lt _ (by decide))).2]
      omega

/-- A character is found again by its code point. -/
theorem namedChar?_codePoint (c : Char) (rest : List Char) :
    namedChar? ('u' :: '\x7b' :: (Nat.toDigits 16 c.toNat ++ '\x7d' :: rest)) = some (c, rest) := by
  have digits : ∀ digit ∈ Nat.toDigits 16 c.toNat, isHexDigit digit = true :=
    fun _ => isHexDigit_of_mem_toDigits
  have front : (Nat.toDigits 16 c.toNat ++ '\x7d' :: rest).takeWhile isHexDigit =
      Nat.toDigits 16 c.toNat := by
    rw [List.takeWhile_append_of_pos digits, List.takeWhile_cons_of_neg (by decide),
      List.append_nil]
  have behind : (Nat.toDigits 16 c.toNat ++ '\x7d' :: rest).dropWhile isHexDigit =
      '\x7d' :: rest := by
    rw [List.dropWhile_append_of_pos digits, List.dropWhile_cons_of_neg (by decide)]
  simp only [namedChar?, front, behind, hexNumber_toDigits, Char.ofNat_toNat]

theorem unquoted_named {text after : List Char} {value : Char}
    (known : namedChar? text = some (value, after)) :
    unquoted ('\\' :: text) =
      (unquoted after).map fun (characters, behind) => (value :: characters, behind) := by
  rw [unquoted, if_neg (by decide), if_pos rfl]
  split
  next absent => rw [known] at absent; cases absent
  next other behind found =>
    rw [known] at found
    obtain ⟨rfl, rfl⟩ := Prod.mk.inj (Option.some.inj found)
    rfl

theorem unquoted_spelled (c : Char) (rest : List Char) :
    unquoted (spelled c ++ rest) =
      (unquoted rest).map fun (characters, behind) => (c :: characters, behind) := by
  unfold spelled
  split
  next same => subst same; exact unquoted_named rfl
  next noQuote =>
  split
  next same => subst same; exact unquoted_named rfl
  next noBackslash =>
  split
  next same => subst same; exact unquoted_named rfl
  split
  next same => subst same; exact unquoted_named rfl
  split
  next same => subst same; exact unquoted_named rfl
  split
  next same => subst same; exact unquoted_named rfl
  split
  next =>
    have named := unquoted_named (namedChar?_codePoint c rest)
    simpa [codePoint] using named
  next => rw [List.singleton_append, unquoted, if_neg noQuote, if_neg noBackslash]

/-- The text of a quotation behind its opening quote. -/
theorem unquoted_flatMap_spelled (characters rest : List Char) :
    unquoted (characters.flatMap spelled ++ '"' :: rest) = some (characters, rest) := by
  induction characters with
  | nil =>
    rw [List.flatMap_nil, List.nil_append, unquoted]
    exact if_pos rfl
  | cons c others ih =>
    rw [List.flatMap_cons, List.append_assoc, unquoted_spelled, ih]
    rfl

theorem lineFeed_not_mem_codePoint (c : Char) : '\n' ∉ codePoint c := by
  have noDigit : '\n' ∉ Nat.toDigits 16 c.toNat := fun member =>
    absurd (isHexDigit_of_mem_toDigits member) (by decide)
  simp [codePoint, noDigit]

theorem lineFeed_not_mem_spelled (c : Char) : '\n' ∉ spelled c := by
  unfold spelled
  split
  next => decide
  split
  next => decide
  split
  next => decide
  next noLineFeed =>
  split
  next => decide
  split
  next => decide
  split
  next => decide
  split
  next => exact lineFeed_not_mem_codePoint c
  next => exact fun member => noLineFeed (List.mem_singleton.mp member).symm

theorem lineFeed_not_mem_flatMap_spelled (text : List Char) : '\n' ∉ text.flatMap spelled := by
  intro member
  obtain ⟨c, -, present⟩ := List.mem_flatMap.mp member
  exact lineFeed_not_mem_spelled c present

end QueryHighlight.Text
