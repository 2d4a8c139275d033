import Mathlib.Algebra.GroupWithZero.Nat
import QueryHighlight.Proofs.Cursor.Scanning
import QueryHighlight.Proofs.Cursor.Shift
import QueryHighlight.Proofs.Scan.Restart

/-!
A scan of bytes taken up in the middle of its line. The scanner stands in the whole line there and
its word boundaries look back, while a scan that is started anew has nothing before its first byte.
Both make the same steps: the flag that a continuation raises is still down wherever bytes are left,
and no step sees what stands in front of the line.
-/

namespace QueryHighlight
open Text Scan

namespace ByteScanner

variable {scanner : ByteScanner} {before : List Char} {other : Scanner} {count : Nat}

/-- The scanner behind its next `count` lexemes. -/
def pass : Nat → ByteScanner → ByteScanner
  | 0, scanner => scanner
  | count + 1, scanner => scanner.next.2.pass count

/-- A step moves on by the length of its lexeme. -/
theorem cursor_next (inside : scanner.cursor.atEnd = false) :
    scanner.next.2.cursor = scanner.cursor.advance scanner.next.1.length := by
  obtain ⟨line_eq, forward⟩ := passes_next inside
  have length_eq :
      scanner.next.1.length = scanner.next.2.cursor.position - scanner.cursor.position := by
    unfold next
    rw [if_neg (Bool.eq_false_iff.mp inside)]
  rw [Cursor.advance, ← line_eq, length_eq, Nat.add_sub_cancel' (Nat.le_of_lt forward)]

theorem atEnd_of_lexemes_pos (present : 0 < scanner.drain.lexemes.length) :
    scanner.cursor.atEnd = false := by
  rw [Bool.eq_false_iff]
  intro ended
  rw [drain_of_atEnd ended] at present
  exact Nat.lt_irrefl 0 present

theorem cursor_pass (present : count ≤ scanner.drain.lexemes.length) :
    (scanner.pass count).cursor =
      scanner.cursor.advance ((scanner.drain.lexemes.take count).map ByteLexeme.length).sum := by
  induction count generalizing scanner with
  | zero => rfl
  | succ count ih =>
    have inside := atEnd_of_lexemes_pos (Nat.lt_of_lt_of_le (Nat.succ_pos count) present)
    rw [drain_of_inside inside] at present ⊢
    rw [pass, ih (Nat.le_of_succ_le_succ present), cursor_next inside, List.take_succ_cons,
      List.map_cons, List.sum_cons, Cursor.advance, Cursor.advance, Cursor.advance, Nat.add_assoc]

theorem drain_pass (present : count ≤ scanner.drain.lexemes.length) :
    (scanner.pass count).drain =
      ⟨scanner.drain.lexemes.drop count, scanner.drain.endState⟩ := by
  induction count generalizing scanner with
  | zero => rfl
  | succ count ih =>
    have inside := atEnd_of_lexemes_pos (Nat.lt_of_lt_of_le (Nat.succ_pos count) present)
    rw [drain_of_inside inside] at present ⊢
    rw [pass, ih (Nat.le_of_succ_le_succ present), List.drop_succ_cons]

/-- Wherever a scan of bytes has come to, a character begins or the line ends. -/
theorem Follows.pass (follows : scanner.Follows before other)
    (present : count ≤ other.drain.lexemes.length) :
    (scanner.pass count).Follows (before ++ Lexeme.texts (other.drain.lexemes.take count))
      (other.pass count) := by
  induction count generalizing scanner before other with
  | zero =>
    have same : before ++ Lexeme.texts (other.drain.lexemes.take 0) = before :=
      List.append_nil before
    rwa [same]
  | succ count ih =>
    have unread : other.rest ≠ [] := by
      intro ended
      rw [Scanner.drain_of_ended ended] at present
      exact absurd present (Nat.not_succ_le_zero count)
    rw [Scanner.drain_of_unread unread] at present ⊢
    have later := ih (follows.next unread).2 (Nat.le_of_succ_le_succ present)
    rw [List.append_assoc] at later
    exact later

/-- Where no continuation has been read, the scanner is one that is started anew on what is ahead,
behind the bytes that have been read. -/
theorem Follows.eq_behind (follows : scanner.Follows before other)
    (fresh : scanner.continued = false) :
    behind (bytes before) { scanner with cursor := { line := bytes other.rest } } = scanner := by
  obtain ⟨comments, state, ⟨line, position⟩, continued⟩ := scanner
  have line_eq : line = bytes before ++ bytes other.rest :=
    follows.parts.line_eq.trans (bytes_append _ _)
  have position_eq : position = (bytes before).length :=
    follows.parts.position_eq.trans (length_bytes before).symm
  rw [line_eq, position_eq]
  rfl

end ByteScanner

open ByteScanner in
/-- At every lexeme boundary before the end of a line, the part of the line behind it is a text, and
scanning that text alone, in the state reached, gives the lexemes that were still to come and ends
in the same state. Nor does any step, at any place of any line, depend on what stands in front of
it. -/
theorem scanBuffer_restart (comments : Bool) (entry : State) (line : String) {count : Nat}
    (inside : count < (scanBuffer comments entry (.ofBytes (bytes line.toList))).lexemes.length) :
    let start : ByteScanner :=
      { comments, state := entry, cursor := (LineBuffer.ofBytes (bytes line.toList)).cursor }
    let full := scanBuffer comments entry (.ofBytes (bytes line.toList))
    let stop := start.pass count
    let place := ((full.lexemes.take count).map ByteLexeme.length).sum
    stop.cursor.position = place ∧ place < line.utf8ByteSize ∧
      (∃ left : String, bytes left.toList = (bytes line.toList).drop place ∧
        scanBuffer comments stop.state (.ofBytes (bytes left.toList)) =
          ⟨full.lexemes.drop count, full.endState⟩) ∧
      ∀ (before : List UInt8) (scanner : ByteScanner),
        (scanner.behind before).next = (scanner.next.1, scanner.next.2.behind before) := by
  intro start full stop place
  let origin : Scanner := { comments, state := entry, rest := line.toList }
  have follows : start.Follows [] origin := follows_start comments entry line
  have insideToo : count < origin.drain.lexemes.length := by
    rwa [scanBuffer_eq_measured, ScannedLine.measured, List.length_map] at inside
  have run : origin.Emits _ (origin.pass count) := Scanner.emits_pass (Nat.le_of_lt insideToo)
  have reached := follows.pass (Nat.le_of_lt insideToo)
  have split : _ = line.toList := run.texts_append_rest
  have unread := Scanner.rest_pass_ne_nil insideToo
  have comments_eq : stop.comments = comments := reached.comments_eq.trans run.comments_eq
  have down : stop.continued = false := by
    rw [reached.continued_eq, run.eq_restarted rfl unread]
  have position_eq : stop.cursor.position = place := by
    have moved : stop.cursor = start.cursor.advance place := cursor_pass (Nat.le_of_lt inside)
    rw [moved]
    exact Nat.zero_add place
  generalize Lexeme.texts (origin.drain.lexemes.take count) = passed at reached split
  generalize origin.pass count = other at reached unread split
  have place_eq : place = byteLength passed := position_eq.symm.trans reached.parts.position_eq
  refine ⟨position_eq, ?_, ⟨String.ofList other.rest, ?_, ?_⟩, fun before scanner => ?_⟩
  · have ahead : byteLength other.rest ≠ 0 := mt byteLength_eq_zero.mp unread
    have size : line.utf8ByteSize = byteLength line.toList := by
      rw [← utf8ByteSize_ofList, String.ofList_toList]
    rw [size, ← split, byteLength_append, place_eq]
    exact Nat.lt_add_of_pos_right (Nat.pos_of_ne_zero ahead)
  · rw [String.toList_ofList, ← split, bytes_append, place_eq, ← length_bytes, List.drop_left]
  · let anew : ByteScanner := { stop with cursor := { line := bytes other.rest } }
    have same : behind (bytes passed) anew = stop := reached.eq_behind down
    have fresh : anew.drain = scanBuffer comments stop.state (.ofBytes (bytes other.rest)) := by
      rw [scanBuffer, LineBuffer.cursor_ofBytes, ← comments_eq, ← down]
    calc scanBuffer comments stop.state (.ofBytes (bytes (String.ofList other.rest).toList))
        = anew.drain := by rw [String.toList_ofList, fresh]
      _ = (behind (bytes passed) anew).drain := (drain_behind _ _).symm
      _ = stop.drain := by rw [same]
      _ = ⟨full.lexemes.drop count, full.endState⟩ := drain_pass (Nat.le_of_lt inside)
  · exact next_behind before scanner

/-- A name right behind a number: a word character stands on either side of the place. -/
theorem scanBuffer_restart_behind_float :
    1 < (scanBuffer true .start (.ofBytes (bytes "1.5x'a\\".toList))).lexemes.length ∧
      scanBuffer true .start (.ofBytes ((bytes "1.5x'a\\".toList).drop 3)) =
        ⟨[⟨.identifier, 1⟩, ⟨.stringOpen, 1⟩, ⟨.stringContent, 1⟩, ⟨.stringContinuation, 1⟩],
          .string .single⟩ := by
  have inside :
      1 < (scanBuffer true .start (.ofBytes (bytes "1.5x'a\\".toList))).lexemes.length := by
    decide +kernel
  obtain ⟨-, -, ⟨left, left_eq, restarted⟩, -⟩ := scanBuffer_restart true .start "1.5x'a\\" inside
  have full : scanBuffer true .start (.ofBytes (bytes "1.5x'a\\".toList)) =
      ⟨[⟨.float, 3⟩, ⟨.identifier, 1⟩, ⟨.stringOpen, 1⟩, ⟨.stringContent, 1⟩,
        ⟨.stringContinuation, 1⟩], .string .single⟩ := by
    decide +kernel
  rw [left_eq, full] at restarted
  exact ⟨inside, restarted⟩

end QueryHighlight
