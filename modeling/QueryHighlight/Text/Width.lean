/-!
Texts measured and cut in bytes. A host counts every offset in bytes of UTF-8 while the rules of
the query language read characters; the functions here join the two views. A cut that falls
inside a character goes behind that character.
-/

namespace QueryHighlight.Text

/-- Bytes that a text takes in UTF-8. -/
def byteLength : List Char → Nat
  | [] => 0
  | c :: rest => c.utf8Size + byteLength rest

@[simp] theorem byteLength_nil : byteLength [] = 0 := rfl

@[simp] theorem byteLength_cons (c : Char) (rest : List Char) :
    byteLength (c :: rest) = c.utf8Size + byteLength rest := rfl

@[simp] theorem byteLength_append (first second : List Char) :
    byteLength (first ++ second) = byteLength first + byteLength second := by
  induction first with
  | nil => simp
  | cons c rest ih => simp [ih, Nat.add_assoc]

theorem byteLength_reverse (text : List Char) : byteLength text.reverse = byteLength text := by
  induction text with
  | nil => rfl
  | cons c rest ih =>
    rw [List.reverse_cons, byteLength_append, ih, byteLength_cons, byteLength_cons, byteLength_nil,
      Nat.add_zero, Nat.add_comm]

/-- Every character takes a byte at least, so only the empty text has no length. -/
theorem byteLength_eq_zero {text : List Char} : byteLength text = 0 ↔ text = [] := by
  cases text with
  | nil => simp
  | cons c rest =>
    have positive := Char.utf8Size_pos c
    simp
    omega

theorem utf8ByteSize_ofList (text : List Char) :
    (String.ofList text).utf8ByteSize = byteLength text := by
  induction text with
  | nil => simp
  | cons c rest ih => simp [String.ofList_cons, ih]

/-- The bytes of a text in UTF-8. -/
def bytes (text : List Char) : List UInt8 := text.flatMap String.utf8EncodeChar

theorem length_bytes (text : List Char) : (bytes text).length = byteLength text := by
  induction text with
  | nil => rfl
  | cons c rest ih => simpa [bytes] using ih

/-- The rest of a text behind its first `count` bytes. -/
def dropBytes : Nat → List Char → List Char
  | 0, text => text
  | _ + 1, [] => []
  | count + 1, c :: rest => dropBytes (count + 1 - c.utf8Size) rest

/-- The first `count` bytes of a text. -/
def takeBytes : Nat → List Char → List Char
  | 0, _ => []
  | _ + 1, [] => []
  | count + 1, c :: rest => c :: takeBytes (count + 1 - c.utf8Size) rest

theorem dropBytes_append (first second : List Char) :
    dropBytes (byteLength first) (first ++ second) = second := by
  induction first with
  | nil => cases second <;> simp [dropBytes]
  | cons c rest ih =>
    obtain ⟨width, same⟩ : ∃ width, c.utf8Size = width + 1 :=
      ⟨c.utf8Size - 1, by have := Char.utf8Size_pos c; omega⟩
    have count : c.utf8Size + byteLength rest = width + byteLength rest + 1 := by omega
    rw [byteLength_cons, count, List.cons_append, dropBytes, ← count, Nat.add_sub_cancel_left, ih]

theorem takeBytes_append (first second : List Char) :
    takeBytes (byteLength first) (first ++ second) = first := by
  induction first with
  | nil => cases second <;> simp [takeBytes]
  | cons c rest ih =>
    obtain ⟨width, same⟩ : ∃ width, c.utf8Size = width + 1 :=
      ⟨c.utf8Size - 1, by have := Char.utf8Size_pos c; omega⟩
    have count : c.utf8Size + byteLength rest = width + byteLength rest + 1 := by omega
    rw [byteLength_cons, count, List.cons_append, takeBytes, ← count, Nat.add_sub_cancel_left, ih]

end QueryHighlight.Text
