import QueryHighlight.Proofs.Scan.PlainLiteral

/-!
The scanner reads literals as the plain automaton does. Both go on piece by piece where there is no
content, with the same pieces. In front of content the scanner's run is longer by one character
than its run from the next character on, which is what joining a piece of content does as well.
-/

namespace QueryHighlight.Scan
open Text

variable {comments : Bool} {quote : Quote} {c : Char} {rest : List Char}

theorem Lexeme.joinedTo_of_not_content {first : Lexeme} (other : first.tag ≠ .stringContent)
    (pieces : List Lexeme) : first.joinedTo pieces = first :: pieces := by
  cases pieces with
  | nil => rfl
  | cons second others => exact if_neg fun both => other both.1

theorem Lexeme.joinedTo_of_head (first : Lexeme) {pieces : List Lexeme}
    (other : ∀ second ∈ pieces.head?, second.tag ≠ .stringContent) :
    first.joinedTo pieces = first :: pieces := by
  cases pieces with
  | nil => rfl
  | cons second others => exact if_neg fun both => other second rfl both.2

open Scanner

theorem stringMatch_of_content (inside : isContent quote (c :: rest) = true) :
    stringMatch quote (c :: rest) =
      { tag := .stringContent, size := contentSize quote rest + 1, state := .string quote } := by
  have size : contentSize quote (c :: rest) = contentSize quote rest + 1 := by
    rw [contentSize, if_pos inside]
  rw [← size]
  obtain ⟨notQuote, noEscape, goesOn⟩ := isContent_iff.mp inside
  simp only [stringMatch, stringRules, List.findSome?_cons, List.findSome?_nil, escapeRule,
    continuationRule, closerRule, noEscape, goesOn, if_neg notQuote, Option.map_none,
    Option.getD_none, Bool.false_eq_true, if_false]

theorem tag_stringMatch_ne (outside : isContent quote (c :: rest) = false) :
    (stringMatch quote (c :: rest)).tag ≠ .stringContent := by
  have step := stringStep quote (List.cons_ne_nil c rest)
  generalize stringMatch quote (c :: rest) = found at step
  cases step with
  | escape => exact Tag.noConfusion
  | continuation => exact Tag.noConfusion
  | closer => exact Tag.noConfusion
  | content inside =>
    rw [outside] at inside
    cases inside

/-- A step inside a literal, with everything that it changes, and what is read behind it. -/
theorem readLiteral_cons {found : Match} (same : stringMatch quote (c :: rest) = found) :
    let piece : Lexeme := ⟨found.tag, c :: rest.take (found.size - 1)⟩
    let left := rest.drop (found.size - 1)
    (inLiteral comments quote (c :: rest)).readLiteral =
      if found.tag = .stringClose then ⟨[piece], found.state, left⟩
      else
        (Scanner.readLiteral
          ⟨comments, found.state, left, found.tag == .stringContinuation⟩).behind piece := by
  have unread : (inLiteral comments quote (c :: rest)).rest ≠ [] := List.cons_ne_nil c rest
  rw [readLiteral, if_neg unread, ← same]
  rfl

/-- At the end of the line both close the literal. -/
theorem readLiteral_nil : (inLiteral comments quote []).readLiteral = ⟨[], .start, []⟩ := by
  have ended : (inLiteral comments quote []).rest = [] := rfl
  rw [readLiteral, if_pos ended]
  rfl

theorem plainLiteral_nil : plainLiteral quote [] = ⟨[], .start, []⟩ := by
  rw [plainLiteral, plainPieces]
  rfl

theorem readLiteral_closer (same : stringMatch quote (c :: rest) =
      { tag := .stringClose, size := 1, state := .start }) :
    (inLiteral comments quote (c :: rest)).readLiteral = ⟨[⟨.stringClose, [c]⟩], .start, rest⟩ :=
  (readLiteral_cons same).trans (if_pos rfl)

theorem plainLiteral_closer (same : plainMatch quote (c :: rest) =
      { tag := .stringClose, size := 1, state := .start }) :
    plainLiteral quote (c :: rest) = ⟨[⟨.stringClose, [c]⟩], .start, rest⟩ := by
  rw [plainLiteral, plainPieces, same]
  rfl

/-- Behind a continuation the line is over, and the scanner keeps its state. -/
theorem readLiteral_continuation (same : stringMatch quote [c] =
      { tag := .stringContinuation, size := 1, state := .string quote }) :
    (inLiteral comments quote [c]).readLiteral =
      ⟨[⟨.stringContinuation, [c]⟩], .string quote, []⟩ := by
  have ended : Scanner.readLiteral ⟨comments, .string quote, [], true⟩ =
      ⟨[], .string quote, []⟩ := by
    rw [readLiteral, if_pos rfl]
    rfl
  refine (readLiteral_cons same).trans ((if_neg Tag.noConfusion).trans ?_)
  exact congrArg (ReadLiteral.behind · ⟨.stringContinuation, [c]⟩) ended

theorem plainLiteral_continuation (same : plainMatch quote [c] =
      { tag := .stringContinuation, size := 1, state := .string quote }) :
    plainLiteral quote [c] = ⟨[⟨.stringContinuation, [c]⟩], .string quote, []⟩ := by
  rw [plainLiteral, plainPieces, same]
  rfl

/-- Behind a piece that neither closes nor continues the literal both go on reading. -/
theorem readLiteral_piece {tag : Tag} {size : Nat}
    (same : stringMatch quote (c :: rest) = { tag, size, state := .string quote })
    (notCloser : tag ≠ .stringClose) (notContinuation : tag ≠ .stringContinuation) :
    (inLiteral comments quote (c :: rest)).readLiteral =
      (inLiteral comments quote (rest.drop (size - 1))).readLiteral.behind
        ⟨tag, c :: rest.take (size - 1)⟩ := by
  refine (readLiteral_cons same).trans ((if_neg notCloser).trans ?_)
  rw [beq_false_of_ne notContinuation]
  rfl

theorem plainPieces_piece {tag : Tag} {size : Nat}
    (same : plainMatch quote (c :: rest) = { tag, size, state := .string quote })
    (notCloser : tag ≠ .stringClose) (notContinuation : tag ≠ .stringContinuation) :
    plainPieces quote (c :: rest) =
      (plainPieces quote (rest.drop (size - 1))).behind ⟨tag, c :: rest.take (size - 1)⟩ := by
  have goesOn : ¬(tag = .stringClose ∨ tag = .stringContinuation) :=
    not_or.mpr ⟨notCloser, notContinuation⟩
  rw [plainPieces, same]
  exact if_neg goesOn

theorem head_readLiteral (outside : isContent quote rest = false) :
    ∀ first ∈ (inLiteral comments quote rest).readLiteral.pieces.head?,
      first.tag ≠ .stringContent := by
  cases rest with
  | nil =>
    rw [readLiteral_nil]
    intro first member
    cases member
  | cons c rest =>
    have tag_ne := tag_stringMatch_ne outside
    rw [readLiteral_cons rfl]
    split
    all_goals
      intro first member
      cases member
      exact tag_ne

/-- One character of content in front makes the first piece longer, if that is content too. -/
theorem readLiteral_content (inside : isContent quote (c :: rest) = true) :
    let later := (inLiteral comments quote rest).readLiteral
    (inLiteral comments quote (c :: rest)).readLiteral =
      { later with pieces := (⟨.stringContent, [c]⟩ : Lexeme).joinedTo later.pieces } := by
  intro later
  rw [readLiteral_piece (stringMatch_of_content inside) Tag.noConfusion Tag.noConfusion,
    Nat.add_sub_cancel]
  by_cases goesOn : isContent quote rest = true
  · cases rest with
    | nil => cases goesOn
    | cons d others =>
      have later_eq : later = _ :=
        readLiteral_piece (stringMatch_of_content goesOn) Tag.noConfusion Tag.noConfusion
      rw [later_eq, Nat.add_sub_cancel, contentSize, if_pos goesOn, List.drop_succ_cons,
        List.take_succ_cons]
      rfl
  · have outside : isContent quote rest = false := Bool.eq_false_iff.mpr goesOn
    have none : contentSize quote rest = 0 := by
      cases rest with
      | nil => rfl
      | cons d others => rw [contentSize, if_neg goesOn]
    rw [none, List.drop_zero, List.take_zero, Lexeme.joinedTo_of_head _ (head_readLiteral outside)]
    rfl

theorem plainLiteral_content (inside : isContent quote (c :: rest) = true) :
    let later := plainLiteral quote rest
    plainLiteral quote (c :: rest) =
      { later with pieces := (⟨.stringContent, [c]⟩ : Lexeme).joinedTo later.pieces } := by
  have same : plainMatch quote (c :: rest) =
      { tag := .stringContent, size := 1, state := .string quote } := by
    rw [plainMatch_eq, if_pos inside]
  intro later
  rw [plainLiteral, plainPieces_piece same Tag.noConfusion Tag.noConfusion]
  rfl

theorem plainLiteral_escape {size : Nat} (same : plainMatch quote (c :: rest) =
      { tag := .stringEscape, size, state := .string quote }) :
    plainLiteral quote (c :: rest) =
      (plainLiteral quote (rest.drop (size - 1))).behind
        ⟨.stringEscape, c :: rest.take (size - 1)⟩ := by
  rw [plainLiteral, plainPieces_piece same Tag.noConfusion Tag.noConfusion, ReadLiteral.behind,
    joinContent, List.foldr_cons, Lexeme.joinedTo_of_not_content Tag.noConfusion]
  rfl

/-- From any place inside a literal the scanner emits what the plain automaton reads there, up to
the closer or the end of the line: the same pieces, and the same state behind them. -/
theorem readLiteral_eq_plainLiteral (comments : Bool) (quote : Quote) (text : List Char) :
    (inLiteral comments quote text).readLiteral = plainLiteral quote text := by
  match text with
  | [] => rw [readLiteral_nil, plainLiteral_nil]
  | c :: rest =>
    by_cases inside : isContent quote (c :: rest) = true
    · rw [readLiteral_content inside, plainLiteral_content inside,
        readLiteral_eq_plainLiteral comments quote rest]
    · have plain : plainMatch quote (c :: rest) = stringMatch quote (c :: rest) := by
        rw [plainMatch_eq, if_neg inside]
      have step := stringStep quote (List.cons_ne_nil c rest)
      generalize same : stringMatch quote (c :: rest) = found at step plain
      cases step with
      | @escape size found =>
        have shorter : (rest.drop (size - 1)).length < (c :: rest).length := by
          rw [List.length_drop, List.length_cons]
          omega
        rw [readLiteral_piece same Tag.noConfusion Tag.noConfusion, plainLiteral_escape plain,
          readLiteral_eq_plainLiteral comments quote (rest.drop (size - 1))]
      | continuation ends =>
        cases ends
        rw [readLiteral_continuation same, plainLiteral_continuation plain]
      | closer => rw [readLiteral_closer same, plainLiteral_closer plain]
      | content content => exact absurd content inside
termination_by text.length

/-- The backslash before `q` starts no escape and the last one ends the line. -/
example : plainLiteral .double "it's \\q\\n\\".toList =
    ⟨[⟨.stringContent, "it's \\q".toList⟩, ⟨.stringEscape, "\\n".toList⟩,
      ⟨.stringContinuation, ['\\']⟩], .string .double, []⟩ := by
  decide +kernel

end QueryHighlight.Scan
