import QueryHighlight.Proofs.Scan.Closing

/-!
What a line hands on to the next one. A literal outlives its line only through a continuation, and
a continuation is a backslash at the very end of the line; so a line that ends in any other way,
the empty line among them, leaves the start state behind in whatever state it was entered.
-/

namespace QueryHighlight.Scan
open Text

/-- The last byte of the line is a backslash. -/
def endsInBackslash (line : String) : Bool := (bytes line.toList).getLast? == some backslash

theorem endsInBackslash_of_split {line : String} {before : List Char}
    (split : line.toList = before ++ ['\\']) : endsInBackslash line = true := by
  have last : bytes ['\\'] = [backslash] := rfl
  rw [endsInBackslash, split, bytes_append, last, List.getLast?_concat, beq_self_eq_true]

/-- The flag that keeps a literal open is raised by the last backslash of the line only. -/
theorem Scanner.Emits.exists_split_of_continued {scanner after : Scanner} {lexemes : List Lexeme}
    (run : scanner.Emits lexemes after) (fresh : scanner.continued = false)
    (continued : after.continued = true) : ∃ before, scanner.rest = before ++ ['\\'] := by
  induction run with
  | done => exact absurd continued (Bool.eq_false_iff.mp fresh)
  | @step scanner after lexemes unread later ih =>
    have raised := continued_next unread
    rw [fresh, Bool.false_or] at raised
    cases continues : scanner.next.1.tag == .stringContinuation with
    | true => exact ⟨[], rest_of_continuation unread (eq_of_beq continues)⟩
    | false =>
      obtain ⟨before, split⟩ := ih (raised.trans continues) continued
      refine ⟨scanner.next.1.text ++ before, ?_⟩
      rw [List.append_assoc, ← split, text_next_append_rest]

theorem endState_scanLine (comments : Bool) (entry : State) {line : String}
    (stops : endsInBackslash line = false) : (scanLine comments entry line).endState = .start := by
  let scanner : Scanner := { comments, state := entry, rest := line.toList }
  obtain ⟨ended, run, atEnd, -⟩ := Scanner.exists_emits_drain scanner
  have closed : ended.continued = false := by
    refine Bool.eq_false_iff.mpr fun continued => ?_
    obtain ⟨before, split⟩ := run.exists_split_of_continued rfl continued
    exact Bool.eq_false_iff.mp stops (endsInBackslash_of_split split)
  have whole := run.drain_eq
  rw [drain_ended closed atEnd] at whole
  exact congrArg ScannedLine.endState whole

end QueryHighlight.Scan
