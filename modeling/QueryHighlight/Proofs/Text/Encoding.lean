import QueryHighlight.Text.Width

/-!
What the first byte of an encoding is good for. No other byte of an encoding could be a first one,
so an encoding is never found inside another, and where one begins no other does.
-/

namespace QueryHighlight.Text

/-- The code points end with U+10FFFF. -/
theorem toNat_val_lt (c : Char) : c.val.toNat < 0x110000 := by
  have valid := c.valid
  simp only [UInt32.isValidChar, Nat.isValidChar] at valid
  omega

theorem exists_encoding (c : Char) :
    ∃ lead others, String.utf8EncodeChar c = lead :: others ∧ lead.IsUTF8FirstByte ∧
      ∀ byte ∈ others, ¬byte.IsUTF8FirstByte := by
  have nonempty : String.utf8EncodeChar c ≠ [] := String.utf8EncodeChar_ne_nil
  obtain ⟨lead, others, encoded⟩ := List.exists_cons_of_ne_nil nonempty
  have first_iff (index : Nat) (inside : index < (lead :: others).length) :
      (lead :: others)[index].IsUTF8FirstByte ↔ index = 0 := by
    simp only [← encoded]
    exact UInt8.isUTF8FirstByte_getElem_utf8EncodeChar
  refine ⟨lead, others, encoded, (first_iff 0 (Nat.zero_lt_succ _)).mpr rfl, ?_⟩
  intro byte member first
  obtain ⟨index, inside, rfl⟩ := List.getElem_of_mem member
  have start := (first_iff (index + 1) (Nat.succ_lt_succ inside)).mp first
  exact Nat.succ_ne_zero index start

/-- Where the encoding of a character begins, that of no other character does. -/
theorem eq_of_utf8EncodeChar_prefix {c d : Char} {rest : List UInt8}
    (begins : String.utf8EncodeChar d <+: String.utf8EncodeChar c ++ rest) : d = c := by
  have decoded (e : Char) (behind : List UInt8) :
      (String.utf8EncodeChar e ++ behind).toByteArray.utf8DecodeChar? 0 = some e := by
    rw [List.toByteArray_append]
    exact ByteArray.utf8DecodeChar?_utf8EncodeChar_append
  obtain ⟨behind, same⟩ := begins
  have both := decoded d behind
  rw [same, decoded c rest] at both
  exact (Option.some.inj both).symm

theorem fromUTF8?_bytes (text : List Char) :
    String.fromUTF8? (bytes text).toByteArray = some (String.ofList text) := by
  have valid : (bytes text).toByteArray.IsValidUTF8 := ByteArray.isValidUTF8_utf8Encode
  rw [String.fromUTF8?, dif_pos valid]
  rfl

end QueryHighlight.Text
