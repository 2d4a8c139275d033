import QueryHighlight.Proofs.Scan.Closing
import QueryHighlight.Proofs.Scan.MaximalStep
import QueryHighlight.Proofs.Scan.Restart

/-!
The shape of a scanned line. Its tags are a run of an automaton that is between tokens or inside a
literal: an opener leads in and a closer leads out, each side has its own tags, and a comment and a
continuation are the end of their line. Behind the last lexeme the scanner finds the end of the line
as often as it is asked.
-/

namespace QueryHighlight.Scan
open Text

/-- Tags of the tokens behind which the scanner is between tokens as before. -/
def Tag.staysOutside : Tag → Bool
  | .identifier | .integer | .float | .hexInteger | .longInteger | .bracketOpen | .bracketClose
  | .whitespace | .invalid => true
  | _ => false

/-- The automaton reads the lexemes of a line from its entry state, and tells the state in which
the next line starts. The end of a line closes a literal unless a continuation comes last. -/
inductive TagRun : State → List Lexeme → State → Prop
  | outsideEnd : TagRun .start [] .start
  | token {lexeme : Lexeme} {later : List Lexeme} {endState : State}
      (stays : lexeme.tag.staysOutside = true) (run : TagRun .start later endState) :
      TagRun .start (lexeme :: later) endState
  | comment {lexeme : Lexeme} (tag : lexeme.tag = .comment) : TagRun .start [lexeme] .start
  | opener {lexeme : Lexeme} {quote : Quote} {later : List Lexeme} {endState : State}
      (tag : lexeme.tag = .stringOpen) (ends : lexeme.text.getLast? = some quote.char)
      (goesOn : later ≠ []) (run : TagRun (.string quote) later endState) :
      TagRun .start (lexeme :: later) endState
  | insideEnd (quote : Quote) : TagRun (.string quote) [] .start
  | piece {lexeme : Lexeme} {quote : Quote} {later : List Lexeme} {endState : State}
      (tag : lexeme.tag = .stringContent ∨ lexeme.tag = .stringEscape)
      (run : TagRun (.string quote) later endState) :
      TagRun (.string quote) (lexeme :: later) endState
  | closer {lexeme : Lexeme} {quote : Quote} {later : List Lexeme} {endState : State}
      (tag : lexeme.tag = .stringClose) (run : TagRun .start later endState) :
      TagRun (.string quote) (lexeme :: later) endState
  | continuation {lexeme : Lexeme} {quote : Quote} (tag : lexeme.tag = .stringContinuation) :
      TagRun (.string quote) [lexeme] (.string quote)

/-- The tag that a line ends on, if it has lexemes at all. -/
def lastTag? (lexemes : List Lexeme) : Option Tag := lexemes.getLast?.map Lexeme.tag

theorem lastTag?_cons_eq_iff {lexeme : Lexeme} {tag : Tag} (other : lexeme.tag ≠ tag)
    (later : List Lexeme) : lastTag? (lexeme :: later) = some tag ↔ lastTag? later = some tag := by
  cases later with
  | nil => simp [lastTag?, other]
  | cons second later => rw [lastTag?, lastTag?, List.getLast?_cons_cons]

/-- Only a continuation at its end carries a literal over to the next line. -/
theorem TagRun.endState_iff {entry endState : State} {lexemes : List Lexeme}
    (run : TagRun entry lexemes endState) :
    (∃ quote, endState = .string quote) ↔ lastTag? lexemes = some .stringContinuation := by
  induction run with
  | outsideEnd => simp [lastTag?]
  | insideEnd quote => simp [lastTag?]
  | comment tag => simp [lastTag?, tag]
  | continuation tag => simp [lastTag?, tag]
  | token stays run ih =>
    rw [ih, lastTag?_cons_eq_iff]
    intro same
    rw [same] at stays
    cases stays
  | opener tag ends goesOn run ih =>
    rw [ih, lastTag?_cons_eq_iff]
    rw [tag]
    exact Tag.noConfusion
  | piece tag run ih =>
    rw [ih, lastTag?_cons_eq_iff]
    rcases tag with same | same <;> rw [same] <;> exact Tag.noConfusion
  | closer tag run ih =>
    rw [ih, lastTag?_cons_eq_iff]
    rw [tag]
    exact Tag.noConfusion

theorem staysOutside_of_isNumeric {tag : Tag} (numeric : tag.isNumeric = true) :
    tag.staysOutside = true := by
  revert numeric
  cases tag <;> decide

namespace Scanner

variable {scanner : Scanner} {quote : Quote}

theorem continued_next_eq_false (unread : scanner.rest ≠ []) (fresh : scanner.continued = false)
    (other : scanner.next.1.tag ≠ .stringContinuation) : scanner.next.2.continued = false := by
  rw [continued_next unread, fresh, beq_false_of_ne other]
  rfl

theorem lexemes_drain_ne_nil (unread : scanner.rest ≠ []) : scanner.drain.lexemes ≠ [] := by
  rw [drain_of_unread unread]
  exact List.cons_ne_nil _ _

/-- A step between tokens is a step of the automaton, in front of a run from where it leads. -/
theorem tagRun_next_start (unread : scanner.rest ≠ []) (outside : scanner.state = .start)
    (fresh : scanner.continued = false)
    (later : scanner.next.2.continued = false →
      TagRun scanner.next.2.state scanner.next.2.drain.lexemes scanner.next.2.drain.endState) :
    TagRun .start (scanner.next.1 :: scanner.next.2.drain.lexemes)
      scanner.next.2.drain.endState := by
  have tag_eq := tag_next unread
  have state_eq := state_next unread
  have text_eq := text_next unread
  have rest_eq := rest_next unread
  have claim := startClaim scanner.comments scanner.rest
  rw [outside] at tag_eq state_eq text_eq rest_eq
  simp only [matchAt] at tag_eq state_eq text_eq rest_eq
  generalize startMatch scanner.comments scanner.rest = found at claim tag_eq state_eq text_eq rest_eq
  have stays (outside : found.tag.staysOutside = true) (start : found.state = .start) :
      TagRun .start (scanner.next.1 :: scanner.next.2.drain.lexemes)
        scanner.next.2.drain.endState := by
    have other : scanner.next.1.tag ≠ .stringContinuation := by
      intro same
      rw [← tag_eq, same] at outside
      cases outside
    have run := later (continued_next_eq_false unread fresh other)
    rw [state_eq, start] at run
    rw [← tag_eq] at outside
    exact .token outside run
  cases claim with
  | numeral known => exact stays (staysOutside_of_isNumeric (isNumeric_of_numeral? known)) rfl
  | name => exact stays rfl rfl
  | openBracket => exact stays rfl rfl
  | closeBracket => exact stays rfl rfl
  | blanks => exact stays rfl rfl
  | unclaimed => exact stays rfl rfl
  | comment =>
    have other : scanner.next.1.tag ≠ .stringContinuation := by
      rw [tag_eq]
      exact Tag.noConfusion
    have ended : scanner.next.2.rest = [] := by
      rw [rest_eq]
      exact List.drop_length
    rw [drain_ended (continued_next_eq_false unread fresh other) ended]
    exact .comment tag_eq
  | opener claimed =>
    obtain ⟨quote, opens, inside, last⟩ := exists_quote_of_openerRule claimed
    have other : scanner.next.1.tag ≠ .stringContinuation := by
      rw [tag_eq, opens]
      exact Tag.noConfusion
    have goesOn : scanner.next.2.rest ≠ [] := by
      rw [rest_eq, ne_eq, List.drop_eq_nil_iff, Nat.not_le]
      exact (fits_openerRule claimed).2
    have run := later (continued_next_eq_false unread fresh other)
    rw [state_eq, inside] at run
    exact .opener (tag_eq.trans opens) (text_eq ▸ last) (lexemes_drain_ne_nil goesOn) run

theorem tagRun_next_string (unread : scanner.rest ≠ []) (inside : scanner.state = .string quote)
    (fresh : scanner.continued = false)
    (later : scanner.next.2.continued = false →
      TagRun scanner.next.2.state scanner.next.2.drain.lexemes scanner.next.2.drain.endState) :
    TagRun (.string quote) (scanner.next.1 :: scanner.next.2.drain.lexemes)
      scanner.next.2.drain.endState := by
  have tag_eq := tag_next unread
  have state_eq := state_next unread
  have step := stringStep quote unread
  rw [inside] at tag_eq state_eq
  simp only [matchAt] at tag_eq state_eq
  generalize stringMatch quote scanner.rest = found at step tag_eq state_eq
  have goesOn (other : found.tag ≠ .stringContinuation) :
      TagRun found.state scanner.next.2.drain.lexemes scanner.next.2.drain.endState := by
    rw [← tag_eq] at other
    have run := later (continued_next_eq_false unread fresh other)
    rw [state_eq] at run
    exact run
  cases step with
  | escape => exact .piece (.inr tag_eq) (goesOn Tag.noConfusion)
  | content => exact .piece (.inl tag_eq) (goesOn Tag.noConfusion)
  | closer => exact .closer tag_eq (goesOn Tag.noConfusion)
  | continuation =>
    have ended := next_continuation unread tag_eq
    have raised : scanner.next.2.continued = true := by
      rw [continued_next unread, tag_eq]
      exact Bool.or_true _
    have endState_eq : scanner.next.2.next.2.state = .string quote := by
      rw [next_of_ended ended, if_pos raised]
      exact state_eq
    rw [drain_of_ended ended, endState_eq]
    exact .continuation tag_eq

theorem tagRun_drain (scanner : Scanner) (fresh : scanner.continued = false) :
    TagRun scanner.state scanner.drain.lexemes scanner.drain.endState := by
  fun_induction drain scanner with
  | case1 scanner ended =>
    have closed := drain_ended fresh ended
    rw [drain_of_ended ended] at closed
    rw [ScannedLine.mk.injEq] at closed
    rw [closed.2]
    cases scanner.state with
    | start => exact .outsideEnd
    | string quote => exact .insideEnd quote
  | case2 scanner unread tail ih =>
    cases same : scanner.state with
    | start => exact tagRun_next_start unread same fresh ih
    | string quote => exact tagRun_next_string unread same fresh ih

/-- Behind the end of a line nothing changes any more. -/
theorem next_next_of_ended (ended : scanner.rest = []) :
    scanner.next.2.next.2 = scanner.next.2 := by
  have again : scanner.next.2.rest = [] := by
    rw [next_of_ended ended]
    exact ended
  rw [next_of_ended again, next_of_ended ended]
  cases scanner.continued <;> rfl

/-- The calls of the scanner give the lexemes of the line one after the other. -/
theorem next_pass {index : Nat} {lexeme : Lexeme}
    (present : scanner.drain.lexemes[index]? = some lexeme) :
    (scanner.pass index).next.1 = lexeme := by
  induction index generalizing scanner with
  | zero =>
    by_cases ended : scanner.rest = []
    · rw [drain_of_ended ended] at present
      cases present
    · rw [drain_of_unread ended] at present
      exact Option.some.inj present
  | succ index ih =>
    by_cases ended : scanner.rest = []
    · rw [drain_of_ended ended] at present
      cases present
    · rw [drain_of_unread ended] at present
      exact ih present

/-- All further calls find the end of the line, and leave the state in which the line ended. -/
theorem pass_of_length_le (scanner : Scanner) {index : Nat}
    (behind : scanner.drain.lexemes.length ≤ index) :
    (scanner.pass index).rest = [] ∧
      (scanner.pass index).next.2.state = scanner.drain.endState := by
  induction index generalizing scanner with
  | zero =>
    by_cases ended : scanner.rest = []
    · rw [drain_of_ended ended]
      exact ⟨ended, rfl⟩
    · have none := List.length_eq_zero_iff.mp (Nat.le_zero.mp behind)
      exact absurd none (lexemes_drain_ne_nil ended)
  | succ index ih =>
    by_cases ended : scanner.rest = []
    · have again : scanner.next.2.rest = [] := by
        rw [next_of_ended ended]
        exact ended
      have later := ih scanner.next.2
      rw [drain_of_ended again, next_next_of_ended ended] at later
      rw [drain_of_ended ended]
      exact later (Nat.zero_le index)
    · rw [drain_of_unread ended] at behind ⊢
      exact ih scanner.next.2 (Nat.le_of_succ_le_succ behind)

end Scanner

/-- The shape of a line. Its tags are a run of the automaton, which ends in the state that the line
hands on; that is a literal's state just when the last lexeme is a continuation. No tag that takes
all it can stands twice in a row. The scanner gives these lexemes call by call, and behind them the
empty one for the end of the line at every call, with the state unchanged. -/
theorem scanLine_shape (comments : Bool) (entry : State) (line : String) :
    let start : Scanner := { comments, state := entry, rest := line.toList }
    let scanned := scanLine comments entry line
    TagRun entry scanned.lexemes scanned.endState ∧
      ((∃ quote, scanned.endState = .string quote) ↔
        lastTag? scanned.lexemes = some .stringContinuation) ∧
      scanned.lexemes.IsChain (fun first second =>
        first.tag.isMaximal = true → second.tag ≠ first.tag) ∧
      (∀ index lexeme, scanned.lexemes[index]? = some lexeme →
        (start.pass index).next.1 = lexeme) ∧
      ∀ index, scanned.lexemes.length ≤ index →
        (start.pass index).next.1.tag = .endOfLine ∧ (start.pass index).next.1.length = 0 ∧
          (start.pass index).next.2.state = scanned.endState := by
  intro start scanned
  have run : TagRun entry scanned.lexemes scanned.endState := start.tagRun_drain rfl
  refine ⟨run, run.endState_iff, start.isChain_drain, ?_, ?_⟩
  · intro index lexeme present
    exact Scanner.next_pass present
  · intro index behind
    obtain ⟨ended, state⟩ := start.pass_of_length_le behind
    refine ⟨?_, ?_, state⟩
    · rw [Scanner.next_of_ended ended]
      rfl
    · rw [Scanner.next_of_ended ended]
      rfl

/-- A name backs off to the boundary before the `$`, which then starts no other name. -/
example : (scanLine false .start "a$ 'b\\").lexemes.map Lexeme.tag =
    [.identifier, .invalid, .whitespace, .stringOpen, .stringContent, .stringContinuation] := by
  decide +kernel

end QueryHighlight.Scan
