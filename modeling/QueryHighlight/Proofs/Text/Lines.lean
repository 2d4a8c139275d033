import QueryHighlight.Proofs.Text.Ascii
import QueryHighlight.Text.Lines

/-!
Line ends among the characters and among the bytes of a text. No line that a text is cut into has
a line feed or a carriage return on it. Both are ASCII, so they are found among the bytes as well:
the bytes of a line end are these two, and the bytes of a line are others.
-/

namespace QueryHighlight.Text

/-- No character of the text ends a line. -/
def IsOneLine (text : List Char) : Prop := ∀ c ∈ text, c ≠ '\n' ∧ c ≠ '\r'

/-- The byte of a line feed or of a carriage return. -/
def endsLine (byte : UInt8) : Bool := byte == 0x0a || byte == 0x0d

/-- The lines of a cut text, without their ends. -/
def Segments.lines (segments : Segments) : List (List Char) :=
  segments.first :: segments.others.map Prod.snd

theorem isOneLine_nil : IsOneLine [] := by
  intro c absent
  cases absent

theorem isOneLine_append {first second : List Char} :
    IsOneLine (first ++ second) ↔ IsOneLine first ∧ IsOneLine second := List.forall_mem_append

theorem isOneLine_of_behind {lineEnd : LineEnd} {segments : Segments}
    (cut : ∀ line ∈ segments.lines, IsOneLine line) :
    ∀ line ∈ (segments.behind lineEnd).lines, IsOneLine line := by
  intro line member
  rcases List.mem_cons.mp member with rfl | later
  · exact isOneLine_nil
  · exact cut line later

theorem isOneLine_of_mem_lines (text : List Char) :
    ∀ line ∈ (Segments.ofText text).lines, IsOneLine line := by
  fun_induction Segments.ofText text with
  | case1 =>
    intro line member
    rw [List.mem_singleton.mp member]
    exact isOneLine_nil
  | case2 rest ih => exact isOneLine_of_behind ih
  | case3 rest _ ih => exact isOneLine_of_behind ih
  | case4 rest ih => exact isOneLine_of_behind ih
  | case5 c rest _ noReturn noFeed ih =>
    intro line member
    rcases List.mem_cons.mp member with rfl | later
    · exact List.forall_mem_cons.mpr ⟨⟨noFeed, noReturn⟩, ih _ List.mem_cons_self⟩
    · exact ih line (List.mem_cons_of_mem _ later)

theorem endsLine_of_mem_lineEnd {byte : UInt8} {lineEnd : LineEnd}
    (member : byte ∈ bytes lineEnd.chars) : endsLine byte = true := by
  have all : (bytes lineEnd.chars).all endsLine = true := by
    cases lineEnd <;> decide
  exact List.all_eq_true.mp all byte member

theorem not_endsLine_of_isOneLine {byte : UInt8} {line : List Char} (oneLine : IsOneLine line)
    (member : byte ∈ bytes line) : endsLine byte = false := by
  obtain ⟨c, present, encoded⟩ := List.mem_flatMap.mp member
  have noFeed : byte ≠ 0x0a := fun same =>
    (oneLine c present).1 (eq_of_mem_utf8EncodeChar (by decide) same encoded)
  have noReturn : byte ≠ 0x0d := fun same =>
    (oneLine c present).2 (eq_of_mem_utf8EncodeChar (by decide) same encoded)
  simp [endsLine, noFeed, noReturn]

end QueryHighlight.Text
