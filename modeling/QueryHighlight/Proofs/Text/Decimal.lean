import Mathlib.Data.List.Basic

/-!
Numbers in decimal digits. The digits of a number are found again in front of anything that is no
digit, and they give the number back. Only zero is written with a zero in front.
-/

namespace QueryHighlight.Text

/-- No digit stands at the head of the text. -/
def EndsDigits (text : List Char) : Prop := ∀ c, text.head? = some c → c.isDigit = false

theorem isDigit_of_mem_toDigits {number : Nat} {c : Char} (member : c ∈ Nat.toDigits 10 number) :
    c.isDigit = true := Nat.isDigit_of_mem_toDigits (by decide) (by decide) member

theorem endsDigits_cons {c : Char} (other : c.isDigit = false) (rest : List Char) :
    EndsDigits (c :: rest) := by
  intro d same
  exact Option.some.inj same ▸ other

theorem takeWhile_toDigits {rest : List Char} (ends : EndsDigits rest) (number : Nat) :
    (Nat.toDigits 10 number ++ rest).takeWhile Char.isDigit = Nat.toDigits 10 number := by
  rw [List.takeWhile_append_of_pos fun c => isDigit_of_mem_toDigits]
  cases rest with
  | nil => rw [List.takeWhile_nil, List.append_nil]
  | cons c others =>
    have other := ends c rfl
    rw [List.takeWhile_cons_of_neg (by simp [other]), List.append_nil]

theorem dropWhile_toDigits {rest : List Char} (ends : EndsDigits rest) (number : Nat) :
    (Nat.toDigits 10 number ++ rest).dropWhile Char.isDigit = rest := by
  rw [List.dropWhile_append_of_pos fun c => isDigit_of_mem_toDigits]
  cases rest with
  | nil => rfl
  | cons c others =>
    have other := ends c rfl
    rw [List.dropWhile_cons_of_neg (by simp [other])]

theorem toList_toString (number : Nat) : (toString number).toList = Nat.toDigits 10 number := by
  rw [Nat.toString_eq_ofList_toDigits, String.toList_ofList]

theorem exists_toDigits_eq_cons (number : Nat) :
    ∃ c rest, Nat.toDigits 10 number = c :: rest ∧ c.isDigit = true := by
  cases same : Nat.toDigits 10 number with
  | nil => exact absurd same Nat.toDigits_ne_nil
  | cons c rest => exact ⟨c, rest, rfl, isDigit_of_mem_toDigits (same ▸ List.mem_cons_self)⟩

/-- Digits are put behind a number, so what stands in front is decided by the first of them. -/
theorem eq_zero_of_head?_toDigits {number : Nat}
    (zero : (Nat.toDigits 10 number).head? = some '0') : number = 0 := by
  induction number using Nat.strongRecOn with
  | ind number ih =>
    by_cases small : number < 10
    · have only : ∀ digit < 10, [Nat.digitChar digit].head? = some '0' → digit = 0 := by decide
      rw [Nat.toDigits_of_lt_base small] at zero
      exact only number small zero
    · rw [Nat.toDigits_of_base_le (by decide) (Nat.le_of_not_lt small)] at zero
      obtain ⟨c, rest, same, -⟩ := exists_toDigits_eq_cons (number / 10)
      have first : (Nat.toDigits 10 (number / 10)).head? = some '0' := by
        rw [same] at zero ⊢
        exact zero
      have less := ih (number / 10) (by omega) first
      omega

end QueryHighlight.Text
