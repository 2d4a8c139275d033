import QueryHighlight.Proofs.Scan.Emission

/-!
Where the bodies of literals begin: behind an opener, and at the start of a line that is scanned
inside a literal. A continuation backslash is the last character of its line, so no body begins
on a line that was already continued.
-/

namespace QueryHighlight.Scan
open Text

theorem Quote.eq_of_char_eq {first second : Quote} (same : first.char = second.char) :
    first = second := by
  have known : Quote.ofChar? first.char = some first := Quote.ofChar?_eq_some.mpr rfl
  rw [Quote.ofChar?_eq_some.mpr same] at known
  exact (Option.some.inj known).symm

theorem isStringPiece_of_isNumeric {tag : Tag} (numeric : tag.isNumeric = true) :
    tag.isStringPiece = false := by
  revert numeric
  cases tag <;> decide

theorem isNumeric_of_integer? {rest : List Char} {tag : Tag} {size : Nat}
    (found : integer? rest = some (tag, size)) : tag.isNumeric = true := by
  rw [integer?, Option.orElse_eq_orElse, Option.orElse_eq_or, Option.or_eq_some_iff] at found
  rcases found with long | ⟨-, plain⟩
  · obtain ⟨_, -, same⟩ := Option.map_eq_some_iff.mp long
    cases same
    rfl
  · have member := List.mem_of_find?_eq_some plain
    simp only [integerSizes, List.mem_append, List.mem_map, Option.mem_toList, Prod.mk.injEq]
      at member
    rcases member with ⟨_, -, rfl, -⟩ | ⟨_, -, rfl, -⟩ <;> rfl

theorem isNumeric_of_numeral? {rest : List Char} {tag : Tag} {size : Nat}
    (found : numeral? rest = some (tag, size)) : tag.isNumeric = true := by
  rw [numeral?, Option.orElse_eq_orElse, Option.orElse_eq_or, Option.or_eq_some_iff] at found
  rcases found with float | ⟨-, whole⟩
  · obtain ⟨_, -, same⟩ := Option.map_eq_some_iff.mp float
    cases same
    rfl
  · exact isNumeric_of_integer? whole

/-- Everything that a step between tokens can do: it opens a literal, or it stays there. -/
inductive StartStep (rest : List Char) : Match → Prop
  | opener {found : Match} (claimed : openerRule rest = some found) : StartStep rest found
  | token {found : Match} (outside : found.tag.isStringPiece = false)
      (stays : found.state = .start) : StartStep rest found

theorem startStep (comments : Bool) (rest : List Char) :
    StartStep rest (startMatch comments rest) := by
  have claim := startClaim comments rest
  generalize startMatch comments rest = found at claim
  cases claim with
  | opener claimed => exact .opener claimed
  | numeral known => exact .token (isStringPiece_of_isNumeric (isNumeric_of_numeral? known)) rfl
  | comment => exact .token rfl rfl
  | name => exact .token rfl rfl
  | openBracket => exact .token rfl rfl
  | closeBracket => exact .token rfl rfl
  | blanks => exact .token rfl rfl
  | unclaimed => exact .token rfl rfl

/-- A step of the scanner is a step between tokens or one inside a literal. -/
inductive ScanStep (rest : List Char) : State → Match → Prop
  | between {found : Match} (step : StartStep rest found) : ScanStep rest .start found
  | inside {quote : Quote} {found : Match} (step : StringStep quote rest found) :
      ScanStep rest (.string quote) found

theorem scanStep (comments : Bool) (state : State) {rest : List Char} (unread : rest ≠ []) :
    ScanStep rest state (Scanner.matchAt comments state rest) := by
  cases state with
  | start => exact .between (startStep comments rest)
  | string quote => exact .inside (stringStep quote unread)

/-- An opener ends on the quote that its literal waits for. -/
theorem exists_quote_of_openerRule {rest : List Char} {found : Match}
    (claimed : openerRule rest = some found) :
    ∃ quote, found.tag = .stringOpen ∧ found.state = .string quote ∧
      (rest.take found.size).getLast? = some quote.char := by
  cases rest with
  | nil => cases claimed
  | cons c rest =>
    rw [openerRule] at claimed
    split at claimed
    · obtain ⟨quote, d, others, same, rfl⟩ := exists_openerAt claimed
      rw [same]
      exact ⟨quote, rfl, rfl, rfl⟩
    · obtain ⟨quote, d, others, same, rfl⟩ := exists_openerAt claimed
      rw [same]
      exact ⟨quote, rfl, rfl, rfl⟩

/-- A quote is the first or, behind the letter, the second character of what an opener looks at. -/
theorem starts_of_openerRule {rest : List Char} {found : Match}
    (claimed : openerRule rest = some found) :
    ∃ quote others, rest = Quote.char quote :: others ∨ rest = 'i' :: Quote.char quote :: others := by
  cases rest with
  | nil => cases claimed
  | cons c rest =>
    rw [openerRule] at claimed
    split at claimed
    next letter =>
      obtain ⟨quote, d, others, same, -⟩ := exists_openerAt claimed
      exact ⟨quote, d :: others, .inr (by rw [letter, same])⟩
    next =>
      obtain ⟨quote, d, others, same, -⟩ := exists_openerAt claimed
      exact ⟨quote, d :: others, .inl same⟩

namespace Scanner

variable {scanner after : Scanner} {quote : Quote} {lexemes first second : List Lexeme}

theorem next_opener (unread : scanner.rest ≠ []) (opens : scanner.next.1.tag = .stringOpen)
    (ends : scanner.next.1.text.getLast? = some quote.char) :
    scanner.next.2.state = .string quote := by
  rw [tag_next unread] at opens
  rw [text_next unread] at ends
  rw [state_next unread]
  have step := scanStep scanner.comments scanner.state unread
  generalize matchAt scanner.comments scanner.state scanner.rest = claimed at step opens ends ⊢
  generalize scanner.state = state at step
  cases step with
  | inside step => cases step <;> cases opens
  | between step =>
    cases step with
    | opener found =>
      obtain ⟨other, -, state, last⟩ := exists_quote_of_openerRule found
      have same : other.char = quote.char := Option.some.inj (last.symm.trans ends)
      rw [state, Quote.eq_of_char_eq same]
    | token outside =>
      rw [opens] at outside
      cases outside

/-- Only a backslash at the end of the line is a continuation. -/
theorem rest_of_continuation (unread : scanner.rest ≠ [])
    (continues : scanner.next.1.tag = .stringContinuation) : scanner.rest = ['\\'] := by
  rw [tag_next unread] at continues
  have step := scanStep scanner.comments scanner.state unread
  generalize matchAt scanner.comments scanner.state scanner.rest = claimed at step continues
  generalize scanner.state = state at step
  cases step with
  | inside step =>
    cases step with
    | continuation ends => exact ends
    | escape => cases continues
    | closer => cases continues
    | content => cases continues
  | between step =>
    cases step with
    | opener found =>
      obtain ⟨other, opens, -, -⟩ := exists_quote_of_openerRule found
      cases opens.symm.trans continues
    | token outside =>
      rw [continues] at outside
      cases outside

/-- Behind a continuation backslash the line is over. -/
theorem next_continuation (unread : scanner.rest ≠ [])
    (continues : scanner.next.1.tag = .stringContinuation) : scanner.next.2.rest = [] := by
  have shorter := length_next_lt unread
  rw [rest_of_continuation unread continues] at shorter
  exact List.length_eq_zero_iff.mp (Nat.lt_one_iff.mp shorter)

theorem Emits.rest_of_continued (run : scanner.Emits lexemes after)
    (fresh : scanner.continued = true → scanner.rest = []) (continued : after.continued = true) :
    after.rest = [] := by
  induction run with
  | done => exact fresh continued
  | @step scanner after lexemes unread later ih =>
    refine ih ?_ continued
    intro reached
    rw [continued_next unread, Bool.or_eq_true] at reached
    rcases reached with already | now
    · exact absurd (fresh already) unread
    · exact next_continuation unread (eq_of_beq now)

theorem Emits.split (run : scanner.Emits (first ++ second) after) :
    ∃ middle, scanner.Emits first middle ∧ middle.Emits second after := by
  induction first generalizing scanner with
  | nil => exact ⟨scanner, .done scanner, run⟩
  | cons lexeme first ih =>
    cases run with
    | step unread later =>
      obtain ⟨middle, before, behind⟩ := ih later
      exact ⟨middle, .step unread before, behind⟩

end Scanner

/-- The body of a literal begins where the scanner stands after `earlier`: behind an opener with
the given quote, or at the start of a line that is scanned inside such a literal. -/
structure BodyStart (comments : Bool) (entry : State) (line : String) (quote : Quote)
    (earlier : List Lexeme) (scanner : Scanner) : Prop where
  run : Scanner.Emits { comments, state := entry, rest := line.toList } earlier scanner
  begins : (earlier = [] ∧ entry = .string quote) ∨
    ∃ before opener, earlier = before ++ [opener] ∧ opener.tag = .stringOpen ∧
      opener.text.getLast? = some quote.char

theorem BodyStart.state_eq {comments : Bool} {entry : State} {line : String} {quote : Quote}
    {earlier : List Lexeme} {scanner : Scanner}
    (start : BodyStart comments entry line quote earlier scanner) :
    scanner.state = .string quote ∧ scanner.continued = false := by
  obtain ⟨run, begins⟩ := start
  rcases begins with ⟨rfl, rfl⟩ | ⟨before, opener, rfl, opens, ends⟩
  · cases run
    exact ⟨rfl, rfl⟩
  · obtain ⟨middle, reached, last⟩ := run.split
    cases last with
    | step unread later =>
      cases later
      refine ⟨Scanner.next_opener unread opens ends, ?_⟩
      have fresh : middle.continued = false := by
        refine Bool.eq_false_iff.mpr fun continued => ?_
        exact unread (reached.rest_of_continued (fun already => nomatch already) continued)
      rw [Scanner.continued_next unread, fresh, opens]
      rfl

end QueryHighlight.Scan
