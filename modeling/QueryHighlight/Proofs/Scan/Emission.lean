import QueryHighlight.Proofs.Scan.MatchSize

/-!
Runs of the scanner. A run is a number of steps before the end of the line, with the lexemes that
they emit; every state that the scanner passes through on a line is the end of one. Whatever a run
has emitted, together with what is still unread, is the line.
-/

namespace QueryHighlight.Scan
open Text

/-- The scanner emits the lexemes one after the other and then stands at `after`. -/
inductive Scanner.Emits : Scanner → List Lexeme → Scanner → Prop
  | done (scanner : Scanner) : Emits scanner [] scanner
  | step {scanner after : Scanner} {lexemes : List Lexeme} (unread : scanner.rest ≠ [])
      (later : Emits scanner.next.2 lexemes after) :
      Emits scanner (scanner.next.1 :: lexemes) after

def Lexeme.texts (lexemes : List Lexeme) : List Char := lexemes.flatMap Lexeme.text

namespace Scanner

variable {scanner middle after : Scanner} {lexemes others : List Lexeme}

theorem Emits.trans (first : scanner.Emits lexemes middle) (second : middle.Emits others after) :
    scanner.Emits (lexemes ++ others) after := by
  induction first with
  | done => exact second
  | step unread later ih => exact .step unread (ih second)

theorem Emits.single (unread : scanner.rest ≠ []) :
    scanner.Emits [scanner.next.1] scanner.next.2 := .step unread (.done _)

theorem Emits.texts_append_rest (run : scanner.Emits lexemes after) :
    Lexeme.texts lexemes ++ after.rest = scanner.rest := by
  induction run with
  | done => rfl
  | @step scanner after lexemes unread later ih =>
    rw [Lexeme.texts, List.flatMap_cons, List.append_assoc]
    exact (congrArg _ ih).trans (text_next_append_rest scanner)

/-- The end of a line is the empty lexeme, and closes a literal that was not continued. -/
theorem next_of_ended (ended : scanner.rest = []) :
    scanner.next =
      (.endOfLine,
        { scanner with state := if scanner.continued = true then scanner.state else .start }) := by
  unfold next
  split
  next => rfl
  next c rest unread => exact absurd (ended.symm.trans unread) (List.cons_ne_nil c rest).symm

/-- A step that takes all that is left of a line, and leads out of every literal, is its last. -/
theorem drain_of_whole {scanner : Scanner} {tag : Tag} (unread : scanner.rest ≠ [])
    (claimed : matchAt scanner.comments scanner.state scanner.rest =
      { tag, size := scanner.rest.length }) :
    scanner.drain = ⟨[⟨tag, scanner.rest⟩], .start⟩ := by
  have step := next_of_matchAt unread claimed
  rw [List.take_length, List.drop_length] at step
  rw [drain_of_unread unread, step, drain_of_ended rfl, next_of_ended rfl, ite_self]

/-- What is drained from a scanner starts with the lexemes of any of its runs. -/
theorem Emits.drain_eq (run : scanner.Emits lexemes after) :
    scanner.drain = ⟨lexemes ++ after.drain.lexemes, after.drain.endState⟩ := by
  induction run with
  | done => rfl
  | step unread later ih => rw [drain_of_unread unread, ih]; rfl

/-- Draining is a run to the end of the line and the step that closes the line. -/
theorem exists_emits_drain (scanner : Scanner) :
    ∃ ended, scanner.Emits scanner.drain.lexemes ended ∧ ended.rest = [] ∧
      scanner.drain.endState = ended.next.2.state := by
  fun_induction drain scanner with
  | case1 scanner ended => exact ⟨scanner, .done scanner, ended, rfl⟩
  | case2 scanner unread tail ih =>
    obtain ⟨ended, run, atEnd, state⟩ := ih
    exact ⟨ended, .step unread run, atEnd, state⟩

/-- Every lexeme of a line is what a step emits at the end of some run. -/
theorem exists_emits_of_mem_drain {scanner : Scanner} {lexeme : Lexeme}
    (member : lexeme ∈ scanner.drain.lexemes) :
    ∃ earlier middle, scanner.Emits earlier middle ∧ middle.rest ≠ [] ∧
      middle.next.1 = lexeme := by
  fun_induction drain scanner with
  | case1 => cases member
  | case2 scanner unread tail ih =>
    rcases List.mem_cons.mp member with rfl | later
    · exact ⟨[], scanner, .done scanner, unread, rfl⟩
    · obtain ⟨earlier, middle, run, goesOn, same⟩ := ih later
      exact ⟨_, middle, .step unread run, goesOn, same⟩

/-- Every step reads a character at least, so a run is no longer than the line. -/
theorem Emits.length_add_le (run : scanner.Emits lexemes after) :
    lexemes.length + after.rest.length ≤ scanner.rest.length := by
  induction run with
  | done scanner => exact Nat.le_of_eq (Nat.zero_add _)
  | step unread later ih =>
    have shorter := length_next_lt unread
    rw [List.length_cons]
    omega

end Scanner

end QueryHighlight.Scan
