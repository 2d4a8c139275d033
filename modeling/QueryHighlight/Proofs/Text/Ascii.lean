import QueryHighlight.Text.Width

/-!
Characters of ASCII among the bytes of a text. Every byte of a longer encoding has its high bit
set, so a byte below 128 always stands for its own character and never for a part of another one.
-/

namespace QueryHighlight.Text

theorem bytes_append (first second : List Char) :
    bytes (first ++ second) = bytes first ++ bytes second := List.flatMap_append

theorem bytes_cons (c : Char) (rest : List Char) :
    bytes (c :: rest) = String.utf8EncodeChar c ++ bytes rest := List.flatMap_cons

theorem exists_byte {text : List Char} {index : Nat} (inside : index < byteLength text) :
    ∃ byte, (bytes text)[index]? = some byte ∧ byte ∈ bytes text := by
  rw [← length_bytes] at inside
  exact ⟨_, List.getElem?_eq_getElem inside, List.getElem_mem inside⟩

theorem getElem?_bytes_of_lt {first second : List Char} {index : Nat}
    (inside : index < byteLength first) :
    (bytes (first ++ second))[index]? = (bytes first)[index]? := by
  rw [bytes_append, List.getElem?_append_left (by rwa [length_bytes])]

theorem getElem?_bytes_add {first second : List Char} {index : Nat} :
    (bytes (first ++ second))[byteLength first + index]? = (bytes second)[index]? := by
  rw [bytes_append, List.getElem?_append_right (by rw [length_bytes]; omega), length_bytes,
    Nat.add_sub_cancel_left]

theorem le_toNat_of_mem_utf8EncodeChar {byte : UInt8} {c : Char} (wide : 0x7f < c.val.toNat)
    (member : byte ∈ String.utf8EncodeChar c) : 0x80 ≤ byte.toNat := by
  have others : ¬c.val.toNat ≤ 0x7f := Nat.not_le.mpr wide
  simp only [String.utf8EncodeChar, if_neg others] at member
  -- The length of the encoding only decides how many bytes there are to look at.
  split at member
  · rcases List.mem_cons.mp member with rfl | member
    · rw [UInt8.toNat_ofNat']
      omega
    · rw [List.mem_singleton.mp member, UInt8.toNat_ofNat']
      omega
  · split at member
    · simp only [List.mem_cons, List.not_mem_nil, or_false] at member
      rcases member with rfl | rfl | rfl <;> rw [UInt8.toNat_ofNat'] <;> omega
    · simp only [List.mem_cons, List.not_mem_nil, or_false] at member
      rcases member with rfl | rfl | rfl | rfl <;> rw [UInt8.toNat_ofNat'] <;> omega

theorem utf8EncodeChar_ascii {c : Char} (ascii : c.val.toNat ≤ 0x7f) :
    String.utf8EncodeChar c = [UInt8.ofNat c.val.toNat] := by
  simp only [String.utf8EncodeChar, if_pos ascii]

/-- A byte of ASCII occurs only in the encoding of its own character. -/
theorem eq_of_mem_utf8EncodeChar {byte : UInt8} {c d : Char} (ascii : d.val.toNat ≤ 0x7f)
    (same : byte = UInt8.ofNat d.val.toNat) (member : byte ∈ String.utf8EncodeChar c) : c = d := by
  have value : byte.toNat = d.val.toNat := by
    rw [same, UInt8.toNat_ofNat']
    omega
  by_cases wide : 0x7f < c.val.toNat
  · have high := le_toNat_of_mem_utf8EncodeChar wide member
    omega
  · rw [utf8EncodeChar_ascii (Nat.not_lt.mp wide), List.mem_singleton] at member
    have toNat_eq : c.val.toNat = d.val.toNat := by
      rw [← value, member, UInt8.toNat_ofNat']
      omega
    exact Char.ext (UInt32.toNat_inj.mp toNat_eq)

end QueryHighlight.Text
