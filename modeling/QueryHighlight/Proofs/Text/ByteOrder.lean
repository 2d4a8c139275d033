import QueryHighlight.Proofs.Text.Ascii
import QueryHighlight.Proofs.Text.Encoding

/-!
Texts are in the same order by their characters and by their bytes. The first byte of an encoding
grows with its length, and encodings of one length hold the digits of the character, the highest
ones first; so where two texts differ first, the smaller character has the smaller byte.
-/

namespace QueryHighlight.Text

/-- The first list is before the second whatever is put behind them. -/
def StaysBelow (first second : List UInt8) : Prop :=
  ∀ rest other, first ++ rest < second ++ other

theorem staysBelow_cons {a b : Nat} (less : a < b) (small : b < 256) (first second : List UInt8) :
    StaysBelow (UInt8.ofNat a :: first) (UInt8.ofNat b :: second) := by
  intro rest other
  refine List.cons_lt_cons_iff.mpr (.inl ?_)
  rw [UInt8.lt_iff_toNat_lt, UInt8.toNat_ofNat', UInt8.toNat_ofNat', Nat.mod_eq_of_lt small,
    Nat.mod_eq_of_lt (Nat.lt_trans less small)]
  exact less

/-- A byte with the lowest six bits of a number goes behind bytes that are in the order of what is
above them. -/
theorem staysBelow_append {v w : Nat} (first second : List UInt8) (less : v < w)
    (below : v / 64 < w / 64 → StaysBelow first second)
    (same : v / 64 = w / 64 → first = second) :
    StaysBelow (first ++ [UInt8.ofNat (v % 64 + 128)]) (second ++ [UInt8.ofNat (w % 64 + 128)]) := by
  intro rest other
  rw [List.append_assoc, List.append_assoc]
  rcases Nat.lt_or_ge (v / 64) (w / 64) with higher | level
  · exact below higher _ _
  · obtain rfl := same (Nat.le_antisymm (Nat.div_le_div_right (Nat.le_of_lt less)) level)
    apply List.append_left_lt
    exact staysBelow_cons (by omega) (by omega) [] [] rest other

/-- The smaller character has the smaller encoding. -/
theorem staysBelow_utf8EncodeChar {c d : Char} (less : c < d) :
    StaysBelow (String.utf8EncodeChar c) (String.utf8EncodeChar d) := by
  have order : c.val.toNat < d.val.toNat := less
  have bound := toNat_val_lt d
  have twice (v : Nat) : v / 4096 = v / 64 / 64 := (Nat.div_div_eq_div_mul v 64 64).symm
  have thrice (v : Nat) : v / 262144 = v / 64 / 64 / 64 := by
    rw [← twice, Nat.div_div_eq_div_mul]
  simp only [String.utf8EncodeChar, twice, thrice]
  generalize c.val.toNat = v at order
  generalize d.val.toNat = w at order bound
  -- Encodings of different lengths differ in their first bytes already.
  split
  next one =>
    split
    next => exact staysBelow_cons order (by omega) [] []
    next =>
      split
      next => exact staysBelow_cons (by omega) (by omega) _ _
      next => split <;> exact staysBelow_cons (by omega) (by omega) _ _
  next notOne =>
    rw [if_neg (by omega : ¬w ≤ 127)]
    split
    next two =>
      split
      next =>
        refine staysBelow_append [_] [_] order (fun higher => ?_) (fun level => by rw [level])
        exact staysBelow_cons (by omega) (by omega) [] []
      next => split <;> exact staysBelow_cons (by omega) (by omega) _ _
    next notTwo =>
      rw [if_neg (by omega : ¬w ≤ 2047)]
      split
      next three =>
        split
        next =>
          refine staysBelow_append [_, _] [_, _] order (fun higher => ?_) (fun level => by rw [level])
          refine staysBelow_append [_] [_] higher (fun higher => ?_) (fun level => by rw [level])
          exact staysBelow_cons (by omega) (by omega) [] []
        next => exact staysBelow_cons (by omega) (by omega) _ _
      next notThree =>
        rw [if_neg (by omega : ¬w ≤ 65535)]
        refine staysBelow_append [_, _, _] [_, _, _] order (fun higher => ?_)
          (fun level => by rw [level])
        refine staysBelow_append [_, _] [_, _] higher (fun higher => ?_) (fun level => by rw [level])
        refine staysBelow_append [_] [_] higher (fun higher => ?_) (fun level => by rw [level])
        exact staysBelow_cons (by omega) (by omega) [] []

theorem bytes_lt_of_lt {first second : List Char} (less : first < second) :
    bytes first < bytes second := by
  induction first generalizing second with
  | nil =>
    cases second with
    | nil => exact absurd less (List.lt_irrefl [])
    | cons d second =>
      have nonempty : String.utf8EncodeChar d ≠ [] := String.utf8EncodeChar_ne_nil
      obtain ⟨byte, others, encoded⟩ := List.exists_cons_of_ne_nil nonempty
      rw [bytes_cons, encoded]
      exact List.nil_lt_cons _ _
  | cons c first ih =>
    cases second with
    | nil => exact absurd less (List.not_lt_nil _)
    | cons d second =>
      rw [bytes_cons, bytes_cons]
      rcases List.cons_lt_cons_iff.mp less with smaller | ⟨rfl, behind⟩
      · exact staysBelow_utf8EncodeChar smaller _ _
      · exact List.append_left_lt (ih behind)

/-- The bytes that a string is kept as. -/
def utf8 (text : String) : List UInt8 := bytes text.toList

theorem utf8_lt_iff {first second : String} : utf8 first < utf8 second ↔ first < second := by
  rw [String.lt_iff]
  refine ⟨fun less => ?_, bytes_lt_of_lt⟩
  rcases Std.lt_trichotomy first.toList second.toList with smaller | same | greater
  · exact smaller
  · rw [utf8, utf8, same] at less
    exact absurd less (List.lt_irrefl _)
  · exact absurd (bytes_lt_of_lt greater) (List.lt_asymm less)

theorem utf8_le_iff {first second : String} : utf8 first ≤ utf8 second ↔ first ≤ second := by
  rw [← List.not_lt, utf8_lt_iff, String.not_lt]

end QueryHighlight.Text
