import QueryHighlight.Cursor
import QueryHighlight.Scan.Scanner

/-!
A line in a buffer of whole blocks. Behind the bytes of the line stands a zero byte, and there are
more of them than any rule looks ahead, so a cursor may read on behind the line. What it reads there
does not depend on how much padding there is.
-/

namespace QueryHighlight
open Text Scan

/-- Zero bytes that stand at least behind the one that ends a line. -/
def padding : Nat := 16

def blockSize : Nat := 64

/-- Bytes that a line of the given length takes in its buffer. -/
def roomFor (length : Nat) : Nat := (length + 1 + padding + (blockSize - 1)) / blockSize * blockSize

theorem lt_roomFor (length : Nat) : length + padding < roomFor length := by
  unfold roomFor blockSize padding
  omega

structure LineBuffer where
  cells : List UInt8
  length : Nat
  padded : length + padding < cells.length
  zero_of_le : ∀ index, length ≤ index → (cells[index]?).getD 0 = 0

namespace LineBuffer

def ofBytes (content : List UInt8) : LineBuffer where
  cells := content ++ List.replicate (roomFor content.length - content.length) 0
  length := content.length
  padded := by
    have room := lt_roomFor content.length
    rw [List.length_append, List.length_replicate]
    omega
  zero_of_le index behind := by
    rw [List.getElem?_append_right behind, List.getElem?_replicate]
    split <;> rfl

/-- The buffer of a line; what a line has behind `maxLineLength` bytes is cut off. -/
def ofLine (line : String) : LineBuffer := ofBytes ((bytes line.toList).take maxLineLength)

/-- A cursor at the start of the line. -/
def cursor (buffer : LineBuffer) : Cursor := { line := buffer.cells.take buffer.length }

theorem cursor_ofBytes (content : List UInt8) : (ofBytes content).cursor = { line := content } := by
  rw [cursor, ofBytes, List.take_left]

/-- The byte at a place of the buffer, zero behind it. -/
def cell (buffer : LineBuffer) (index : Nat) : UInt8 := (buffer.cells[index]?).getD 0

variable (buffer : LineBuffer) (position offset : Nat)

theorem cell_of_le {index : Nat} (behind : buffer.length ≤ index) : buffer.cell index = 0 :=
  buffer.zero_of_le index behind

theorem getD_line_cursor (index : Nat) :
    (buffer.cursor.line[index]?).getD 0 = buffer.cell index := by
  rw [cursor, List.getElem?_take]
  split
  next => rfl
  next behind => rw [buffer.cell_of_le (Nat.not_lt.mp behind), Option.getD_none]

/-- A cursor reads the cells of the buffer, behind the line too. -/
theorem peekAt_cursor :
    (buffer.cursor.advance position).peekAt offset = buffer.cell (position + offset) := by
  rw [← getD_line_cursor, Cursor.peekAt, Cursor.advance, cursor, Nat.zero_add]

theorem takeWhile_drop_cells {isMember : UInt8 → Bool} (noNull : isMember 0 = false) {index : Nat}
    (behind : buffer.length ≤ index) : (buffer.cells.drop index).takeWhile isMember = [] := by
  cases found : buffer.cells.drop index with
  | nil => rfl
  | cons byte rest =>
    have here : buffer.cell index = byte := by
      rw [cell, ← List.head?_drop, found, List.head?_cons, Option.getD_some]
    have zero : byte = 0 := here.symm.trans (buffer.cell_of_le behind)
    rw [zero, List.takeWhile_cons, noNull]
    rfl

/-- A row of bytes ends with the line at the latest, since the zero byte that stands there is of no
class. -/
theorem countWhile_cursor {isMember : UInt8 → Bool} (noNull : isMember 0 = false) :
    (buffer.cursor.advance position).countWhile offset isMember =
      ((buffer.cells.drop (position + offset)).takeWhile isMember).length := by
  have unread_eq : ((buffer.cursor.advance position).advance offset).unread =
      (buffer.cells.take buffer.length).drop (position + offset) := by
    rw [Cursor.unread, Cursor.advance, Cursor.advance, cursor, Nat.zero_add]
  rw [Cursor.countWhile, unread_eq]
  rcases Nat.le_total (position + offset) buffer.length with inside | behind
  · have present : position + offset ≤ (buffer.cells.take buffer.length).length := by
      have padded := buffer.padded
      rw [List.length_take]
      omega
    have split : buffer.cells.drop (position + offset) =
        (buffer.cells.take buffer.length).drop (position + offset) ++
          buffer.cells.drop buffer.length := by
      rw [← List.drop_append_of_le_length present, List.take_append_drop]
    rw [split, List.takeWhile_append, buffer.takeWhile_drop_cells noNull (Nat.le_refl _)]
    split
    next all => rw [List.append_nil, all]
    next => rfl
  · have short : (buffer.cells.take buffer.length).length ≤ position + offset :=
      Nat.le_trans (List.length_take_le _ _) behind
    rw [List.drop_eq_nil_iff.mpr short, buffer.takeWhile_drop_cells noNull behind]
    rfl

theorem any_isWordByte (byte? : Option UInt8) :
    byte?.any Cursor.isWordByte = Cursor.isWordByte (byte?.getD 0) := by
  cases byte? with
  | none => rfl
  | some byte => rfl

/-- A word boundary is told by two cells, the one before the place and the one behind it; before the
start of the line and behind its end there is no word. -/
theorem boundaryAt_cursor (place : Nat) (same : place = position + offset) :
    (buffer.cursor.advance position).boundaryAt offset =
      (Cursor.isWordByte (if place = 0 then 0 else buffer.cell (place - 1)) !=
        Cursor.isWordByte (if buffer.length ≤ place then 0 else buffer.cell place)) := by
  have wordAt (index : Nat) :
      (buffer.cursor.line[index]?).any Cursor.isWordByte =
        Cursor.isWordByte (buffer.cell index) := by
    rw [any_isWordByte, getD_line_cursor]
  have before : (decide (0 < place) && Cursor.isWordByte (buffer.cell (place - 1))) =
      Cursor.isWordByte (if place = 0 then 0 else buffer.cell (place - 1)) := by
    split
    next start => rw [start]; rfl
    next behind => rw [decide_eq_true (Nat.pos_of_ne_zero behind), Bool.true_and]
  have after : (if buffer.length ≤ place then 0 else buffer.cell place) = buffer.cell place := by
    split
    next behind => exact (buffer.cell_of_le behind).symm
    next => rfl
  have position_eq : (buffer.cursor.advance position).position = position := Nat.zero_add _
  have line_eq : (buffer.cursor.advance position).line = buffer.cursor.line := rfl
  rw [← before, after, Cursor.boundaryAt, position_eq, line_eq, ← same]
  simp only [wordAt]

end LineBuffer

end QueryHighlight
