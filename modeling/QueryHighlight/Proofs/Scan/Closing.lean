import QueryHighlight.Proofs.Scan.Opening
import QueryHighlight.Proofs.Scan.PairedText

/-!
Where literals end. From the start of a body the scanner emits content and escapes until it meets
the quote, a backslash that ends the line, or the end of the line. All that it has emitted by then
is paired text, so the quote it meets is the first that has an even number of backslashes before
it, and the backslash it meets is the last of an odd number.
-/

namespace QueryHighlight.Scan
open Text

/-- What is emitted inside a body leaves the scanner inside it and ready for the next character. -/
structure BodyRun (quote : Quote) (scanner : Scanner) (pieces : List Lexeme) (stop : Scanner) :
    Prop where
  run : scanner.Emits pieces stop
  tags : ∀ piece ∈ pieces, piece.tag = .stringContent ∨ piece.tag = .stringEscape
  paired : PairedText quote (Lexeme.texts pieces)
  state : stop.state = .string quote
  continued : stop.continued = scanner.continued

/-- What can stand behind the content and the escapes of a body. -/
inductive BodyEnd (quote : Quote) : List Char → Prop
  | ended : BodyEnd quote []
  | continuation : BodyEnd quote ['\\']
  | closer (after : List Char) : BodyEnd quote (quote.char :: after)

variable {quote : Quote} {scanner middle stop : Scanner} {pieces others : List Lexeme}

theorem BodyRun.done (inside : scanner.state = .string quote) : BodyRun quote scanner [] scanner where
  run := .done scanner
  tags := fun _ member => nomatch member
  paired := .nil
  state := inside
  continued := rfl

theorem BodyRun.trans (before : BodyRun quote scanner pieces middle)
    (behind : BodyRun quote middle others stop) : BodyRun quote scanner (pieces ++ others) stop where
  run := before.run.trans behind.run
  tags := by
    intro piece member
    rcases List.mem_append.mp member with first | second
    · exact before.tags piece first
    · exact behind.tags piece second
  paired := by
    rw [Lexeme.texts, List.flatMap_append]
    exact before.paired.append behind.paired
  state := behind.state
  continued := behind.continued.trans before.continued

theorem BodyRun.single (unread : scanner.rest ≠ [])
    (tag : scanner.next.1.tag = .stringContent ∨ scanner.next.1.tag = .stringEscape)
    (paired : PairedText quote scanner.next.1.text) (state : scanner.next.2.state = .string quote) :
    BodyRun quote scanner [scanner.next.1] scanner.next.2 where
  run := .single unread
  tags := by
    intro piece member
    rw [List.mem_singleton.mp member]
    exact tag
  paired := by
    rw [Lexeme.texts, List.flatMap_singleton]
    exact paired
  state := state
  continued := by
    have other : (scanner.next.1.tag == .stringContinuation) = false := by
      rcases tag with same | same <;> rw [same] <;> rfl
    rw [Scanner.continued_next unread, other, Bool.or_false]

/-- Inside a body a step either ends the body or is a run of one piece. -/
theorem bodyEnd_or_bodyRun (inside : scanner.state = .string quote) (unread : scanner.rest ≠ []) :
    BodyEnd quote scanner.rest ∨ BodyRun quote scanner [scanner.next.1] scanner.next.2 := by
  have step : StringStep quote scanner.rest
      (Scanner.matchAt scanner.comments scanner.state scanner.rest) := by
    rw [inside]
    exact stringStep quote unread
  have tag_eq := Scanner.tag_next unread
  have state_eq := Scanner.state_next unread
  have text_eq := Scanner.text_next unread
  generalize Scanner.matchAt scanner.comments scanner.state scanner.rest = claimed
    at step tag_eq state_eq text_eq
  cases step with
  | escape found =>
    exact .inr (.single unread (.inr tag_eq) (text_eq ▸ pairedText_escape quote found) state_eq)
  | content =>
    exact .inr (.single unread (.inl tag_eq) (text_eq ▸ pairedText_content quote _) state_eq)
  | continuation ends => exact .inl (ends ▸ .continuation)
  | closer closes => exact .inl (closes ▸ .closer _)

theorem exists_bodyRun {scanner : Scanner} (inside : scanner.state = .string quote) :
    ∃ pieces stop, BodyRun quote scanner pieces stop ∧ BodyEnd quote stop.rest := by
  by_cases ended : scanner.rest = []
  · exact ⟨[], scanner, .done inside, ended ▸ .ended⟩
  · rcases bodyEnd_or_bodyRun inside ended with ends | first
    · exact ⟨[], scanner, .done inside, ends⟩
    · have shorter := Scanner.length_next_lt ended
      obtain ⟨pieces, stop, later, ends⟩ := exists_bodyRun first.state
      exact ⟨_, stop, first.trans later, ends⟩
termination_by scanner.rest.length

theorem stringMatch_quote (quote : Quote) (after : List Char) :
    stringMatch quote (quote.char :: after) = { tag := .stringClose, size := 1 } := by
  cases quote <;> cases after <;> rfl

theorem bytes_quote (quote : Quote) (after : List Char) :
    bytes (quote.char :: after) = quote.byte :: bytes after := by
  cases quote <;> rfl

/-- The step that closes a literal. -/
theorem next_quote {after : List Char} (inside : scanner.state = .string quote)
    (closes : scanner.rest = quote.char :: after) :
    scanner.next = (⟨.stringClose, [quote.char]⟩, { scanner with state := .start, rest := after }) := by
  obtain ⟨comments, state, rest, continued⟩ := scanner
  cases inside
  cases closes
  simp only [Scanner.next, Scanner.matchAt, stringMatch_quote, Nat.sub_self, List.take_zero,
    List.drop_zero]
  rw [show (Tag.stringClose == Tag.stringContinuation) = false from rfl, Bool.or_false]

theorem drain_ended (fresh : stop.continued = false) (ended : stop.rest = []) :
    stop.drain = ⟨[], .start⟩ := by
  obtain ⟨comments, state, rest, continued⟩ := stop
  cases fresh
  cases ended
  rw [Scanner.drain_of_ended rfl]
  rfl

theorem drain_continuation (inside : stop.state = .string quote) (ends : stop.rest = ['\\']) :
    stop.drain = ⟨[⟨.stringContinuation, ['\\']⟩], .string quote⟩ := by
  obtain ⟨comments, state, rest, continued⟩ := stop
  cases inside
  cases ends
  have behind : (Scanner.next ⟨comments, .string quote, ['\\'], continued⟩).2 =
      ⟨comments, .string quote, [], true⟩ := by
    show (⟨comments, .string quote, [], continued || true⟩ : Scanner) = _
    rw [Bool.or_true]
  rw [Scanner.drain_of_unread (List.cons_ne_nil _ _), behind, Scanner.drain_of_ended rfl]
  rfl

/-- The unread part of a line is what its bytes go on with behind the bytes already read. -/
theorem Scanner.Emits.drop_bytes (run : scanner.Emits pieces stop) :
    (bytes scanner.rest).drop (bytes (Lexeme.texts pieces)).length = bytes stop.rest := by
  rw [← run.texts_append_rest, bytes_append, List.drop_left]

theorem BodyRun.bytes_rest (body : BodyRun quote scanner pieces stop) :
    bytes scanner.rest = bytes (Lexeme.texts pieces) ++ bytes stop.rest := by
  rw [← bytes_append, body.run.texts_append_rest]

/-- A body that meets the quote closes where the quote stands. -/
theorem BodyRun.closesAt {after : List Char} (body : BodyRun quote scanner pieces stop)
    (closes : stop.rest = quote.char :: after) :
    ClosesAt quote (bytes scanner.rest) (bytes (Lexeme.texts pieces)).length := by
  rw [body.bytes_rest, closes, bytes_quote]
  have first : ClosesAt quote (quote.byte :: bytes after) 0 := ⟨rfl, rfl⟩
  exact (closesAt_append_right body.paired.goesThrough.paired).mpr first

/-- A body that meets the end of the line, or a backslash there, closes nowhere on the line. -/
theorem BodyRun.not_closesAt (body : BodyRun quote scanner pieces stop)
    (ends : stop.rest = [] ∨ stop.rest = ['\\']) (index : Nat) :
    ¬ClosesAt quote (bytes scanner.rest) index := by
  intro closes
  have through := body.paired.goesThrough
  rw [body.bytes_rest] at closes
  obtain ⟨further, rfl⟩ := Nat.exists_eq_add_of_le (through.le_of_closesAt closes)
  obtain ⟨found, -⟩ := (closesAt_append_right through.paired).mp closes
  rcases ends with ended | continues
  · rw [ended] at found
    cases found
  · rw [continues] at found
    have member : quote.byte ∈ [backslash] := List.mem_of_getElem? found
    exact quote.byte_ne_backslash (List.mem_singleton.mp member)

theorem BodyRun.backslashRun_mod (body : BodyRun quote scanner pieces stop) :
    backslashRun (bytes scanner.rest) % 2 = backslashRun (bytes stop.rest) % 2 := by
  rw [body.bytes_rest, backslashRun_append_mod body.paired.goesThrough.paired]

end QueryHighlight.Scan
