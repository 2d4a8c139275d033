import QueryHighlight.Proofs.Scan.LiteralReading
import QueryHighlight.Proofs.Scan.Restart

/-!
What the switch for comments changes. Two scans of a line that differ in the switch alone go in
step until the first comment: there one of them takes the rest of the line, and the other takes the
`#` as an error and goes on. Inside a literal there is no rule that the switch reaches, so a `#`
there is a part of the literal under both settings.
-/

namespace QueryHighlight.Scan
open Text

/-- What a scan with comments and one without make of the same text: either the same lexemes, or
the same lexemes up to a `#`, which starts a comment in one and is an error in the other. -/
inductive CommentSwitch (text : List Char) (on off : ScannedLine) : Prop
  | same (agree : on = off) (clear : ∀ lexeme ∈ on.lexemes, lexeme.tag ≠ .comment) :
      CommentSwitch text on off
  | parts (before after : List Lexeme) (comment : Lexeme)
      (on_eq : on = ⟨before ++ [comment], .start⟩)
      (off_eq : off.lexemes = before ++ ⟨.invalid, ['#']⟩ :: after)
      (tag : comment.tag = .comment) (starts : comment.text.head? = some '#')
      (whole : Lexeme.texts before ++ comment.text = text)
      (clear : ∀ lexeme ∈ before, lexeme.tag ≠ .comment) : CommentSwitch text on off

variable {text : List Char} {on off : ScannedLine}

/-- A lexeme that both scans emit in front. -/
theorem CommentSwitch.cons {lexeme : Lexeme} (other : lexeme.tag ≠ .comment)
    (switch : CommentSwitch text on off) :
    CommentSwitch (lexeme.text ++ text) ⟨lexeme :: on.lexemes, on.endState⟩
      ⟨lexeme :: off.lexemes, off.endState⟩ := by
  cases switch with
  | same agree clear =>
    refine .same (by rw [agree]) ?_
    intro member present
    rcases List.mem_cons.mp present with rfl | later
    · exact other
    · exact clear member later
  | parts before after comment on_eq off_eq tag starts whole clear =>
    subst on_eq
    refine .parts (lexeme :: before) after comment rfl ?_ tag starts ?_ ?_
    · rw [off_eq, List.cons_append]
    · rw [← whole, ← List.append_assoc]
      rfl
    · intro member present
      rcases List.mem_cons.mp present with rfl | later
      · exact other
      · exact clear member later

/-- Where comments are off, a `#` between tokens is an error. -/
theorem startMatch_hash (after : List Char) :
    startMatch false ('#' :: after) = { tag := .invalid, size := 1 } := by
  have claim := startClaim false ('#' :: after)
  generalize startMatch false ('#' :: after) = found at claim ⊢
  cases claim with
  | unclaimed => rfl
  | comment enabled => cases enabled
  | opener claimed =>
    obtain ⟨quote, others, starts | starts⟩ := starts_of_openerRule claimed
    · cases quote <;> cases starts
    · cases starts
  | numeral known =>
    rw [numeral?_eq_none (by decide) (by decide)] at known
    cases known
  | name known => cases known
  | openBracket starts isOpen =>
    cases starts
    cases isOpen
  | closeBracket starts isClose =>
    cases starts
    cases isClose
  | blanks positive => exact absurd positive (Nat.lt_irrefl 0)

theorem tag_stringMatch_ne_comment (quote : Quote) {rest : List Char} (unread : rest ≠ []) :
    (stringMatch quote rest).tag ≠ .comment := by
  have step := stringStep quote unread
  generalize stringMatch quote rest = found at step
  cases step <;> exact Tag.noConfusion

theorem tag_startMatch_ne_comment (rest : List Char) : (startMatch false rest).tag ≠ .comment := by
  have claim := startClaim false rest
  generalize startMatch false rest = found at claim
  intro same
  cases claim with
  | comment enabled => cases enabled
  | opener claimed =>
    obtain ⟨quote, opens, -, -⟩ := exists_quote_of_openerRule claimed
    rw [opens] at same
    cases same
  | numeral known =>
    cases same
    cases isNumeric_of_numeral? known
  | name => cases same
  | openBracket => cases same
  | closeBracket => cases same
  | blanks => cases same
  | unclaimed => cases same

namespace Scanner

/-- Without the switch no step emits a comment. -/
theorem tag_next_ne_comment {scanner : Scanner} (unread : scanner.rest ≠ [])
    (off : scanner.comments = false) : scanner.next.1.tag ≠ .comment := by
  rw [tag_next unread, off]
  cases scanner.state with
  | start => exact tag_startMatch_ne_comment _
  | string quote => exact tag_stringMatch_ne_comment quote unread

/-- The switch makes a difference only where a `#` between tokens starts a comment. -/
theorem matchAt_eq_or_comment (state : State) (rest : List Char) :
    matchAt true state rest = matchAt false state rest ∨
      state = .start ∧ (∃ after, rest = '#' :: after) ∧
        startMatch true rest = { tag := .comment, size := rest.length } := by
  cases state with
  | string quote => exact .inl rfl
  | start =>
    have tried := startMatch_eq_getD true rest
    cases known : commentRule true rest with
    | none =>
      rw [known] at tried
      exact .inl tried
    | some found =>
      obtain ⟨after, starts, -, -, same⟩ := exists_comment known
      rw [known, same] at tried
      exact .inr ⟨rfl, ⟨after, starts⟩, tried⟩

/-- Where the switch makes no difference, neither does it for the step. -/
theorem next_of_matchAt_eq {scanner : Scanner} (off : scanner.comments = false)
    (agree : matchAt true scanner.state scanner.rest = matchAt false scanner.state scanner.rest) :
    next { scanner with comments := true } =
      (scanner.next.1, { scanner.next.2 with comments := true }) := by
  obtain ⟨comments, state, rest, continued⟩ := scanner
  cases off
  cases rest with
  | nil => rfl
  | cons c after =>
    simp only at agree
    simp only [next, agree]

/-- Where a comment starts, it is all that one scan still emits, and the other goes on behind an
error. -/
theorem commentSwitch_of_comment {scanner : Scanner} {after : List Char}
    (off : scanner.comments = false) (outside : scanner.state = .start)
    (starts : scanner.rest = '#' :: after)
    (claimed : startMatch true scanner.rest = { tag := .comment, size := scanner.rest.length }) :
    CommentSwitch scanner.rest (drain { scanner with comments := true }) scanner.drain := by
  obtain ⟨comments, state, rest, continued⟩ := scanner
  cases off
  cases outside
  cases starts
  have unread : '#' :: after ≠ [] := List.cons_ne_nil '#' after
  have on_eq : drain ⟨true, .start, '#' :: after, continued⟩ =
      ⟨[] ++ [⟨.comment, '#' :: after⟩], .start⟩ := drain_of_whole unread claimed
  have first : (next ⟨false, .start, '#' :: after, continued⟩).1 = ⟨.invalid, ['#']⟩ := by
    simp only [next, matchAt, startMatch_hash, Nat.sub_self, List.take_zero]
  have off_eq : (drain ⟨false, .start, '#' :: after, continued⟩).lexemes =
      [] ++ ⟨.invalid, ['#']⟩ ::
        (next ⟨false, .start, '#' :: after, continued⟩).2.drain.lexemes := by
    rw [drain_of_unread unread, first]
    rfl
  refine .parts [] _ _ on_eq off_eq rfl rfl rfl ?_
  intro lexeme absent
  cases absent

/-- Two scanners that stand at the same place in the same state, with and without comments. -/
theorem commentSwitch_drain (scanner : Scanner) (off : scanner.comments = false) :
    CommentSwitch scanner.rest (drain { scanner with comments := true }) scanner.drain := by
  fun_induction drain scanner with
  | case1 scanner ended =>
    have also : ({ scanner with comments := true } : Scanner).rest = [] := ended
    rw [drain_of_ended also, next_of_ended also, next_of_ended ended]
    refine .same rfl ?_
    intro lexeme absent
    cases absent
  | case2 scanner unread tail ih =>
    have also : ({ scanner with comments := true } : Scanner).rest ≠ [] := unread
    rcases matchAt_eq_or_comment scanner.state scanner.rest with agree | comment
    · rw [drain_of_unread also, next_of_matchAt_eq off agree, ← text_next_append_rest scanner]
      exact (ih ((comments_next scanner).trans off)).cons (tag_next_ne_comment unread off)
    · obtain ⟨outside, ⟨after, starts⟩, claimed⟩ := comment
      have parts := commentSwitch_of_comment off outside starts claimed
      rw [drain_of_unread unread] at parts
      exact parts

/-- Only its closer ends a literal before the line ends. -/
theorem state_next_of_ne_closer {scanner : Scanner} {quote : Quote} (unread : scanner.rest ≠ [])
    (inside : scanner.state = .string quote) (goesOn : scanner.next.1.tag ≠ .stringClose) :
    scanner.next.2.state = .string quote := by
  have step := stringStep quote unread
  rw [tag_next unread, inside] at goesOn
  rw [state_next unread, inside]
  simp only [matchAt] at goesOn ⊢
  generalize stringMatch quote scanner.rest = found at step goesOn ⊢
  cases step with
  | closer => exact absurd rfl goesOn
  | escape => rfl
  | continuation => rfl
  | content => rfl

/-- All that is read up to the end of a literal is kept, and no comment is among it. -/
theorem readLiteral_pieces {scanner : Scanner} {quote : Quote}
    (inside : scanner.state = .string quote) :
    Lexeme.texts scanner.readLiteral.pieces ++ scanner.readLiteral.rest = scanner.rest ∧
      ∀ piece ∈ scanner.readLiteral.pieces, piece.tag ≠ .comment := by
  fun_induction readLiteral scanner with
  | case1 scanner ended =>
    refine ⟨ended.symm, ?_⟩
    intro piece absent
    cases absent
  | case2 scanner unread closes =>
    refine ⟨?_, ?_⟩
    · rw [← text_next_append_rest scanner, Lexeme.texts, List.flatMap_singleton]
    · intro piece member
      rw [List.mem_singleton.mp member, closes]
      exact Tag.noConfusion
  | case3 scanner unread goesOn ih =>
    obtain ⟨kept, clear⟩ := ih (state_next_of_ne_closer unread inside goesOn)
    refine ⟨?_, ?_⟩
    · rw [← text_next_append_rest scanner, ← kept, ← List.append_assoc]
      rfl
    · intro piece member
      rcases List.mem_cons.mp member with rfl | later
      · rw [tag_next unread, inside]
        exact tag_stringMatch_ne_comment quote unread
      · exact clear piece later

end Scanner

/-- Switching comments on changes nothing in a line but comments: the scans agree, or they agree up
to a `#` that starts a comment, which takes the rest of the line, and is an error without comments.
No comment is ever emitted without the switch, and none with it before a literal has ended. -/
theorem scanLine_comments (entry : State) (line : String) :
    CommentSwitch line.toList (scanLine true entry line) (scanLine false entry line) ∧
      (∀ lexeme ∈ (scanLine false entry line).lexemes, lexeme.tag ≠ .comment) ∧
      ∀ (scanner : Scanner) (quote : Quote), scanner.state = .string quote →
        Lexeme.texts scanner.readLiteral.pieces ++ scanner.readLiteral.rest = scanner.rest ∧
          ∀ piece ∈ scanner.readLiteral.pieces, piece.tag ≠ .comment := by
  let off : Scanner := { comments := false, state := entry, rest := line.toList }
  refine ⟨Scanner.commentSwitch_drain off rfl, ?_, fun _ _ => Scanner.readLiteral_pieces⟩
  intro lexeme member
  obtain ⟨earlier, middle, run, unread, rfl⟩ := Scanner.exists_emits_of_mem_drain member
  exact Scanner.tag_next_ne_comment unread run.comments_eq

/-- The first `#` is inside a literal and a line terminator follows the second. -/
example : (scanLine true .start "'#' #\n#'").lexemes.map Lexeme.tag =
    [.stringOpen, .stringContent, .stringClose, .whitespace, .invalid, .whitespace, .comment] := by
  decide +kernel

end QueryHighlight.Scan
