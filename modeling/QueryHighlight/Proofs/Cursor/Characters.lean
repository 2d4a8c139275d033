import QueryHighlight.Cursor
import QueryHighlight.Proofs.Text.Ascii
import QueryHighlight.Proofs.Text.Boundary
import QueryHighlight.Proofs.Text.Encoding

/-!
A cursor that moves by characters. It knows bytes only and takes the width of a character from the
first of them. Yet from the start of a line it comes to the start of every character, one after the
other, reads that character there, and stops where the line ends.
-/

namespace QueryHighlight.Cursor
open Text

/-- The cursor parts the characters of its line into those before its position and those behind. -/
structure Parts (cursor : Cursor) (before after : List Char) : Prop where
  line_eq : cursor.line = bytes (before ++ after)
  position_eq : cursor.position = byteLength before

theorem charWidth_ofNat {n : Nat} (small : n < 256) :
    charWidth (UInt8.ofNat n) =
      if 0xc0 ≤ n ∧ n ≤ 0xdf then 2 else if 0xe0 ≤ n ∧ n ≤ 0xef then 3
      else if 0xf0 ≤ n ∧ n ≤ 0xf7 then 4 else 1 := by
  have toNat_eq : (UInt8.ofNat n).toNat = n := by
    rw [UInt8.toNat_ofNat', Nat.mod_eq_of_lt small]
  simp only [charWidth, UInt8.le_iff_toNat_le, toNat_eq]
  rfl

/-- The first byte of an encoding tells how many bytes there are. -/
theorem charWidth_of_encoding {c : Char} {lead : UInt8} {others : List UInt8}
    (encoded : String.utf8EncodeChar c = lead :: others) : charWidth lead = c.utf8Size := by
  have bound := toNat_val_lt c
  rw [← String.length_utf8EncodeChar, encoded]
  simp only [String.utf8EncodeChar] at encoded
  -- Each length has first bytes in a range of its own.
  split at encoded
  next one =>
    obtain ⟨rfl, rfl⟩ := List.cons.inj encoded
    rw [charWidth_ofNat (by omega), if_neg (by omega), if_neg (by omega), if_neg (by omega)]
    rfl
  next notOne =>
    split at encoded
    next two =>
      obtain ⟨rfl, rfl⟩ := List.cons.inj encoded
      rw [charWidth_ofNat (by omega), if_pos (by omega)]
      rfl
    next notTwo =>
      split at encoded
      next three =>
        obtain ⟨rfl, rfl⟩ := List.cons.inj encoded
        rw [charWidth_ofNat (by omega), if_neg (by omega), if_pos (by omega)]
        rfl
      next notThree =>
        obtain ⟨rfl, rfl⟩ := List.cons.inj encoded
        rw [charWidth_ofNat (by omega), if_neg (by omega), if_neg (by omega), if_pos (by omega)]
        rfl

theorem current_eq_headD_unread (cursor : Cursor) : cursor.current = cursor.unread.headD 0 := by
  rw [current, peekAt, unread, Nat.add_zero, List.headD_eq_head?_getD, List.head?_drop]

theorem parts_ofLine (line : String) : (ofLine line).Parts [] line.toList := ⟨rfl, rfl⟩

namespace Parts

variable {cursor : Cursor} {before piece after : List Char} {c : Char}

theorem unread_eq (parts : cursor.Parts before after) : cursor.unread = bytes after := by
  rw [unread, parts.line_eq, parts.position_eq, bytes_append, ← length_bytes, List.drop_left]

theorem lineLength_eq (parts : cursor.Parts before after) :
    cursor.lineLength = cursor.position + byteLength after := by
  rw [lineLength, parts.line_eq, length_bytes, byteLength_append, parts.position_eq]

theorem atEnd_iff (parts : cursor.Parts before after) : cursor.atEnd = true ↔ after = [] := by
  rw [atEnd, decide_eq_true_iff, parts.lineLength_eq, ← byteLength_eq_zero]
  omega

theorem not_atEnd (parts : cursor.Parts before (c :: after)) : ¬cursor.atEnd = true :=
  mt parts.atEnd_iff.mp (List.cons_ne_nil c after)

theorem charWidth_current (parts : cursor.Parts before (c :: after)) :
    charWidth cursor.current = c.utf8Size := by
  obtain ⟨lead, others, encoded, -⟩ := exists_encoding c
  rw [current_eq_headD_unread, parts.unread_eq, bytes_cons, encoded]
  exact charWidth_of_encoding encoded

/-- The bytes that the first of them asks for are a text of one character, the one ahead. -/
theorem currentChar?_eq (parts : cursor.Parts before after) :
    cursor.currentChar? = after.head? := by
  cases after with
  | nil =>
    rw [currentChar?, if_pos (parts.atEnd_iff.mpr rfl)]
    rfl
  | cons c after =>
    have piece_eq : cursor.unread.take (charWidth cursor.current) = bytes [c] := by
      rw [parts.charWidth_current, parts.unread_eq, bytes_cons, ← String.length_utf8EncodeChar,
        List.take_left]
      exact (List.flatMap_singleton _ _).symm
    rw [currentChar?, if_neg parts.not_atEnd, piece_eq]
    change (String.fromUTF8? (bytes [c]).toByteArray).bind _ = some c
    rw [fromUTF8?_bytes, Option.bind_some, String.toList_ofList, List.head?_cons]

theorem advance (parts : cursor.Parts before (piece ++ after)) :
    (cursor.advance (byteLength piece)).Parts (before ++ piece) after where
  line_eq := by rw [Cursor.advance, parts.line_eq, List.append_assoc]
  position_eq := by rw [Cursor.advance, parts.position_eq, byteLength_append]

theorem advanceChar (parts : cursor.Parts before (c :: after)) :
    cursor.advanceChar.Parts (before ++ [c]) after := by
  have regrouped : cursor.Parts before ([c] ++ after) := parts
  have fits : c.utf8Size ≤ cursor.lineLength - cursor.position := by
    rw [parts.lineLength_eq, Nat.add_sub_cancel_left, byteLength_cons]
    exact Nat.le_add_right _ _
  have moved : cursor.advanceChar = cursor.advance (byteLength [c]) := by
    rw [Cursor.advanceChar, parts.charWidth_current, Nat.min_eq_left fits,
      Nat.max_eq_right (Char.utf8Size_pos c)]
    rfl
  rw [moved]
  exact regrouped.advance

end Parts

/-- The cursors that a reader holds who goes to the end of the line character by character. -/
def characterWalk (cursor : Cursor) : List Cursor :=
  if cursor.atEnd then [cursor] else cursor :: cursor.advanceChar.characterWalk
termination_by cursor.lineLength - cursor.position
decreasing_by
  next inside =>
    have forward := cursor.position_lt_advanceChar
    have same : cursor.advanceChar.lineLength = cursor.lineLength := rfl
    simp only [atEnd, decide_eq_true_eq] at inside
    omega

theorem le_position_of_mem_characterWalk {cursor stop : Cursor}
    (member : stop ∈ cursor.characterWalk) : cursor.position ≤ stop.position := by
  fun_induction characterWalk cursor with
  | case1 cursor ended =>
    obtain rfl := List.mem_singleton.mp member
    exact Nat.le_refl _
  | case2 cursor inside ih =>
    rcases List.mem_cons.mp member with rfl | later
    · exact Nat.le_refl _
    · exact Nat.le_of_lt (Nat.lt_of_lt_of_le cursor.position_lt_advanceChar (ih later))

/-- No walk stops at one place twice, wherever it sets out. -/
theorem pairwise_position_characterWalk (cursor : Cursor) :
    (cursor.characterWalk.map position).Pairwise (· < ·) := by
  fun_induction characterWalk cursor with
  | case1 cursor ended => exact List.pairwise_singleton _ _
  | case2 cursor inside ih =>
    refine List.pairwise_cons.mpr ⟨?_, ih⟩
    intro place later
    obtain ⟨stop, member, rfl⟩ := List.mem_map.mp later
    have further := le_position_of_mem_characterWalk member
    exact Nat.lt_of_lt_of_le cursor.position_lt_advanceChar further

namespace Parts

variable {cursor : Cursor} {before after : List Char} {c : Char}

theorem characterWalk_nil (parts : cursor.Parts before []) : cursor.characterWalk = [cursor] := by
  rw [characterWalk, if_pos (parts.atEnd_iff.mpr rfl)]

theorem characterWalk_cons (parts : cursor.Parts before (c :: after)) :
    cursor.characterWalk = cursor :: cursor.advanceChar.characterWalk := by
  rw [characterWalk, if_neg parts.not_atEnd]

/-- A walk reads the characters that are ahead and ends when none is. -/
theorem exists_characterWalk (parts : cursor.Parts before after) :
    ∃ stops last, cursor.characterWalk = stops ++ [last] ∧
      stops.map currentChar? = after.map some ∧ (∀ stop ∈ stops, stop.atEnd = false) ∧
      last.Parts (before ++ after) [] := by
  induction after generalizing cursor before with
  | nil =>
    refine ⟨[], cursor, parts.characterWalk_nil, rfl, ?_, ?_⟩
    · intro stop absent
      cases absent
    · rwa [List.append_nil]
  | cons c after ih =>
    obtain ⟨stops, last, walk_eq, characters, inside, ended⟩ := ih parts.advanceChar
    refine ⟨cursor :: stops, last, ?_, ?_, ?_, ?_⟩
    · rw [parts.characterWalk_cons, walk_eq]
      rfl
    · rw [List.map_cons, characters, parts.currentChar?_eq]
      rfl
    · exact List.forall_mem_cons.mpr ⟨Bool.eq_false_iff.mpr parts.not_atEnd, inside⟩
    · rwa [List.append_assoc] at ended

/-- A walk stops behind any number of characters and nowhere else. -/
theorem mem_position_characterWalk_iff (parts : cursor.Parts before after) (place : Nat) :
    place ∈ cursor.characterWalk.map position ↔
      ∃ passed, passed <+: after ∧ byteLength (before ++ passed) = place := by
  induction after generalizing cursor before with
  | nil =>
    rw [parts.characterWalk_nil, List.map_singleton, List.mem_singleton, parts.position_eq]
    simp only [List.prefix_nil, exists_eq_left, List.append_nil]
    exact eq_comm
  | cons c after ih =>
    rw [parts.characterWalk_cons, List.map_cons, List.mem_cons, ih parts.advanceChar,
      parts.position_eq]
    constructor
    · rintro (rfl | ⟨passed, ahead, rfl⟩)
      · exact ⟨[], List.nil_prefix, by rw [List.append_nil]⟩
      · refine ⟨c :: passed, List.cons_prefix_cons.mpr ⟨rfl, ahead⟩, ?_⟩
        rw [List.append_assoc, List.singleton_append]
    · rintro ⟨passed, ahead, rfl⟩
      rcases List.prefix_cons_iff.mp ahead with rfl | ⟨later, rfl, further⟩
      · exact .inl (by rw [List.append_nil])
      · exact .inr ⟨later, further, by rw [List.append_assoc, List.singleton_append]⟩

end Parts

/-- Reading the current character and moving on by it, until the end of the line is reached, reads
the characters of the line in their order, stops at its character boundaries and nowhere else, and
comes to an end at the end of the line, where no character is left. -/
theorem characterWalk_reads_line (line : String) :
    ∃ stops last, (ofLine line).characterWalk = stops ++ [last] ∧
      stops.map currentChar? = line.toList.map some ∧
      (∀ stop ∈ stops, stop.atEnd = false) ∧ last.atEnd = true ∧
      last.position = (ofLine line).lineLength ∧ last.currentChar? = none ∧
      ((stops ++ [last]).map position).Pairwise (· < ·) ∧
      ∀ place, place ∈ (stops ++ [last]).map position ↔
        String.Pos.Raw.IsValid line ⟨place⟩ := by
  have parts := parts_ofLine line
  obtain ⟨stops, last, walk_eq, characters, inside, ended⟩ := parts.exists_characterWalk
  refine ⟨stops, last, walk_eq, characters, inside, ended.atEnd_iff.mpr rfl, ?_,
    ended.currentChar?_eq, ?_, ?_⟩
  · rw [ended.position_eq, parts.lineLength_eq, List.nil_append]
    exact (Nat.zero_add _).symm
  · rw [← walk_eq]
    exact pairwise_position_characterWalk _
  · intro place
    rw [← walk_eq, parts.mem_position_characterWalk_iff, isValid_iff_prefix]
    rfl

end QueryHighlight.Cursor
