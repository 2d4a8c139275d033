import QueryHighlight.Proofs.Scan.Opening

/-!
A scan stopped in the middle of its line. Between two lexemes the state is all that has to be
remembered: the flag that a continuation raises is still down wherever characters are left, so what
is emitted from there on is what a scanner emits that is started there in the same state.
-/

namespace QueryHighlight.Scan
open Text

namespace Scanner

variable {scanner after : Scanner} {lexemes : List Lexeme}

/-- The scanner behind its next `count` lexemes. -/
def pass : Nat → Scanner → Scanner
  | 0, scanner => scanner
  | count + 1, scanner => scanner.next.2.pass count

theorem emits_pass {count : Nat} (present : count ≤ scanner.drain.lexemes.length) :
    scanner.Emits (scanner.drain.lexemes.take count) (scanner.pass count) := by
  induction count generalizing scanner with
  | zero => exact .done scanner
  | succ count ih =>
    have unread : scanner.rest ≠ [] := by
      intro ended
      rw [drain_of_ended ended] at present
      exact absurd present (Nat.not_succ_le_zero count)
    rw [drain_of_unread unread] at present ⊢
    exact .step unread (ih (Nat.le_of_succ_le_succ present))

theorem comments_next (scanner : Scanner) : scanner.next.2.comments = scanner.comments := by
  unfold next
  split <;> rfl

theorem Emits.comments_eq (run : scanner.Emits lexemes after) :
    after.comments = scanner.comments := by
  induction run with
  | done => rfl
  | step unread later ih => exact ih.trans (comments_next _)

/-- Where a run stops before the end of the line, the scanner is as good as new: it differs from
one that is started there in nothing. -/
theorem Emits.eq_restarted (run : scanner.Emits lexemes after)
    (fresh : scanner.continued = false) (unread : after.rest ≠ []) :
    after = { comments := scanner.comments, state := after.state, rest := after.rest } := by
  have down : after.continued = false := by
    refine Bool.eq_false_iff.mpr fun raised => unread (run.rest_of_continued ?_ raised)
    intro already
    exact absurd already (Bool.eq_false_iff.mp fresh)
  rw [← run.comments_eq, ← down]

theorem drain_pass {count : Nat} (present : count ≤ scanner.drain.lexemes.length) :
    (scanner.pass count).drain =
      ⟨scanner.drain.lexemes.drop count, scanner.drain.endState⟩ := by
  have whole := (emits_pass present).drain_eq
  have lexemes_eq : scanner.drain.lexemes.take count ++ (scanner.pass count).drain.lexemes =
      scanner.drain.lexemes.take count ++ scanner.drain.lexemes.drop count := by
    rw [List.take_append_drop]
    exact (congrArg ScannedLine.lexemes whole).symm
  have endState_eq : (scanner.pass count).drain.endState = scanner.drain.endState :=
    (congrArg ScannedLine.endState whole).symm
  rw [← List.append_cancel_left lexemes_eq, ← endState_eq]

theorem rest_pass_ne_nil {count : Nat} (inside : count < scanner.drain.lexemes.length) :
    (scanner.pass count).rest ≠ [] := by
  intro ended
  have empty : scanner.drain.lexemes.drop count = [] := by
    have behind := drain_pass (Nat.le_of_lt inside)
    rw [drain_of_ended ended] at behind
    exact (congrArg ScannedLine.lexemes behind).symm
  exact absurd (List.drop_eq_nil_iff.mp empty) (Nat.not_le.mpr inside)

end Scanner

end QueryHighlight.Scan
