import QueryHighlight.Proofs.Scan.Closing

/-!
The parity law of string literals. Whether a literal ends on its line, where it ends, and whether
it goes on in the next line depends on nothing but the quotes in its body and on how many
backslashes stand before each of them and before the end of the line.
-/

namespace QueryHighlight.Scan
open Text

variable {quote : Quote} {scanner : Scanner} {index : Nat}

/-- The first quote that no backslash escapes closes the literal. -/
theorem exists_emits_closer (inside : scanner.state = .string quote)
    (closes : ClosesAt quote (bytes scanner.rest) index)
    (first : ∀ before < index, ¬ClosesAt quote (bytes scanner.rest) before) :
    ∃ pieces closer after, scanner.Emits (pieces ++ [closer]) after ∧
      (∀ piece ∈ pieces, piece.tag = .stringContent ∨ piece.tag = .stringEscape) ∧
      bytes (Lexeme.texts pieces) = (bytes scanner.rest).take index ∧
      closer.tag = .stringClose ∧ bytes closer.text = [quote.byte] ∧ after.state = .start := by
  obtain ⟨pieces, stop, body, ends⟩ := exists_bodyRun inside
  cases same : stop.rest with
  | nil => exact absurd closes (body.not_closesAt (.inl same) index)
  | cons c after =>
    rw [same] at ends
    cases ends with
    | continuation => exact absurd closes (body.not_closesAt (.inr same) index)
    | closer =>
      have reached := body.closesAt same
      -- The quote that the scanner meets closes, so it is not behind the first that does.
      have notBehind : index ≤ (bytes (Lexeme.texts pieces)).length :=
        Nat.le_of_not_lt fun behind => (first _ behind reached).elim
      have notBefore : (bytes (Lexeme.texts pieces)).length ≤ index := by
        rw [body.bytes_rest] at closes
        exact body.paired.goesThrough.le_of_closesAt closes
      have there : index = (bytes (Lexeme.texts pieces)).length :=
        Nat.le_antisymm notBehind notBefore
      have unread : stop.rest ≠ [] := by
        rw [same]
        exact List.cons_ne_nil _ _
      have step := next_quote body.state same
      refine ⟨pieces, stop.next.1, stop.next.2, body.run.trans (.single unread), body.tags, ?_, ?_,
        ?_, ?_⟩
      · rw [body.bytes_rest, there, List.take_left]
      · rw [step]
      · rw [step]
        exact bytes_quote quote []
      · rw [step]

/-- Without such a quote nothing but pieces of the literal is emitted to the end of the line, and
an odd number of backslashes there carries the literal over to the next line. -/
theorem exists_drain_open (inside : scanner.state = .string quote)
    (fresh : scanner.continued = false)
    (stays : ∀ index, ¬ClosesAt quote (bytes scanner.rest) index) :
    ∃ pieces, scanner.drain =
        ⟨pieces, if backslashRun (bytes scanner.rest) % 2 = 1 then .string quote else .start⟩ ∧
      (∀ piece ∈ pieces, piece.tag = .stringContent ∨ piece.tag = .stringEscape ∨
        piece.tag = .stringContinuation) ∧
      (backslashRun (bytes scanner.rest) % 2 = 1 → ∃ last, pieces.getLast? = some last ∧
        last.tag = .stringContinuation ∧ bytes last.text = [backslash]) := by
  obtain ⟨pieces, stop, body, ends⟩ := exists_bodyRun inside
  have tags : ∀ piece ∈ pieces, piece.tag = .stringContent ∨ piece.tag = .stringEscape ∨
      piece.tag = .stringContinuation := by
    intro piece member
    exact (body.tags piece member).imp_right .inl
  rw [body.run.drain_eq, body.backslashRun_mod]
  cases same : stop.rest with
  | nil =>
    have even : ¬backslashRun (bytes []) % 2 = 1 := by decide
    rw [drain_ended (body.continued.trans fresh) same, if_neg even]
    refine ⟨pieces, by rw [List.append_nil], tags, fun odd => absurd odd even⟩
  | cons c after =>
    rw [same] at ends
    cases ends with
    | closer => exact absurd (body.closesAt same) (stays _)
    | continuation =>
      have odd : backslashRun (bytes ['\\']) % 2 = 1 := rfl
      rw [drain_continuation body.state same, if_pos odd]
      refine ⟨_, rfl, ?_, fun _ => ⟨_, List.getLast?_concat, rfl, rfl⟩⟩
      intro piece member
      rcases List.mem_append.mp member with before | last
      · exact tags piece before
      · rw [List.mem_singleton.mp last]
        exact .inr (.inr rfl)

/-- The parity law. A body closes at its first quote behind an even number of backslashes; if there
is none, it goes on to the end of the line, and beyond it just when the line ends on an odd number
of backslashes. -/
theorem literal_parity {comments : Bool} {entry : State} {line : String} {earlier : List Lexeme}
    (start : BodyStart comments entry line quote earlier scanner) :
    let body := (bytes line.toList).drop (bytes (Lexeme.texts earlier)).length
    (∀ index, ClosesAt quote body index → (∀ before < index, ¬ClosesAt quote body before) →
      ∃ pieces closer after, scanner.Emits (pieces ++ [closer]) after ∧
        (∀ piece ∈ pieces, piece.tag = .stringContent ∨ piece.tag = .stringEscape) ∧
        bytes (Lexeme.texts pieces) = body.take index ∧
        closer.tag = .stringClose ∧ bytes closer.text = [quote.byte] ∧ after.state = .start) ∧
    ((∀ index, ¬ClosesAt quote body index) →
      ∃ pieces, scanLine comments entry line =
          ⟨earlier ++ pieces, if backslashRun body % 2 = 1 then .string quote else .start⟩ ∧
        (∀ piece ∈ pieces, piece.tag = .stringContent ∨ piece.tag = .stringEscape ∨
          piece.tag = .stringContinuation) ∧
        (backslashRun body % 2 = 1 → ∃ last, pieces.getLast? = some last ∧
          last.tag = .stringContinuation ∧ bytes last.text = [backslash])) := by
  intro body
  have unread : body = bytes scanner.rest := start.run.drop_bytes
  obtain ⟨inside, fresh⟩ := start.state_eq
  rw [unread]
  constructor
  · intro index closes first
    exact exists_emits_closer inside closes first
  · intro stays
    obtain ⟨pieces, drained, rest⟩ := exists_drain_open inside fresh stays
    refine ⟨pieces, ?_, rest⟩
    rw [scanLine, start.run.drain_eq, drained]

/-- One quote is escaped, the next stands behind an escaped backslash and closes; in the second
line the last of three backslashes escapes the end of the line. -/
theorem literal_parity_behind_backslashes :
    (∃ scanner, BodyStart false .start "\"a\\\"\\q\\\\\"b" .double [⟨.stringOpen, ['"']⟩] scanner ∧
      ∃ pieces closer after, scanner.Emits (pieces ++ [closer]) after ∧
        bytes (Lexeme.texts pieces) = bytes "a\\\"\\q\\\\".toList ∧ closer.tag = .stringClose ∧
        after.state = .start) ∧
    (scanLine false (.string .single) "it\\\\\\").endState = .string .single := by
  constructor
  · have start : BodyStart false .start "\"a\\\"\\q\\\\\"b" .double [⟨.stringOpen, ['"']⟩]
        ⟨false, .string .double, "a\\\"\\q\\\\\"b".toList, false⟩ := by
      refine ⟨?_, .inr ⟨[], ⟨.stringOpen, ['"']⟩, rfl, rfl, rfl⟩⟩
      exact .step (List.cons_ne_nil _ _) (.done _)
    obtain ⟨pieces, closer, after, run, -, covered, closes, -, state⟩ :=
      (literal_parity start).1 7 (by decide) (by decide)
    exact ⟨_, start, pieces, closer, after, run, covered, closes, state⟩
  · have start : BodyStart false (.string .single) "it\\\\\\" .single [] _ :=
      ⟨.done _, .inl ⟨rfl, rfl⟩⟩
    have stays (index : Nat) : ¬ClosesAt .single (bytes "it\\\\\\".toList) index := by
      intro closes
      obtain ⟨bound, -⟩ := List.getElem?_eq_some_iff.mp closes.1
      have within : ∀ index < 5, ¬ClosesAt .single (bytes "it\\\\\\".toList) index := by decide
      exact within index bound closes
    obtain ⟨pieces, scanned, -⟩ := (literal_parity start).2 stays
    rw [scanned]
    rfl

end QueryHighlight.Scan
