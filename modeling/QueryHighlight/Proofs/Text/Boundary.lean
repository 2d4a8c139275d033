import QueryHighlight.Text.Width

/-!
Cuts of a text in characters, seen in bytes: behind any number of characters there is a character
boundary, and the bytes between two such cuts are the bytes of the characters between them.
-/

namespace QueryHighlight.Text

theorem utf8ByteSize_eq_byteLength (text : String) : text.utf8ByteSize = byteLength text.toList := by
  rw [← utf8ByteSize_ofList, String.ofList_toList]

variable {text : String} {before piece after : List Char}

theorem isValid_of_split (split : text.toList = before ++ after) :
    String.Pos.Raw.IsValid text ⟨byteLength before⟩ := by
  rw [String.Pos.Raw.isValid_iff_exists_append]
  refine ⟨String.ofList before, String.ofList after, ?_, ?_⟩
  · rw [← String.ofList_append, ← split, String.ofList_toList]
  · rw [String.Pos.Raw.ext_iff, String.byteIdx_rawEndPos, utf8ByteSize_ofList]

theorem isValid_iff_prefix {position : Nat} :
    String.Pos.Raw.IsValid text ⟨position⟩ ↔
      ∃ before, before <+: text.toList ∧ byteLength before = position := by
  constructor
  · intro valid
    obtain ⟨first, second, rfl, place⟩ := String.Pos.Raw.isValid_iff_exists_append.mp valid
    refine ⟨first.toList, ⟨second.toList, String.toList_append.symm⟩, ?_⟩
    rw [← utf8ByteSize_eq_byteLength]
    exact (congrArg String.Pos.Raw.byteIdx place).symm
  · rintro ⟨before, ⟨after, split⟩, rfl⟩
    exact isValid_of_split split.symm

theorem extract_of_split (split : text.toList = before ++ (piece ++ after)) :
    text.toByteArray.extract (byteLength before) (byteLength before + byteLength piece) =
      (String.ofList piece).toByteArray := by
  have whole : text = String.ofList before ++ (String.ofList piece ++ String.ofList after) := by
    rw [← String.ofList_append, ← String.ofList_append, ← split, String.ofList_toList]
  have size (chars : List Char) : byteLength chars = (String.ofList chars).toByteArray.size := by
    rw [String.size_toByteArray, utf8ByteSize_ofList]
  have skipped := ByteArray.extract_append_size_add (a := (String.ofList before).toByteArray)
    (b := (String.ofList piece).toByteArray ++ (String.ofList after).toByteArray)
    (i := 0) (j := (String.ofList piece).toByteArray.size)
  rw [Nat.add_zero] at skipped
  rw [whole, String.toByteArray_append, String.toByteArray_append, size before, size piece, skipped]
  exact ByteArray.extract_append_eq_left rfl

end QueryHighlight.Text
