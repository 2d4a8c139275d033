import QueryHighlight.Scan.Rule

/-!
What the rules between tokens claim. A step there is the claim of the first rule that matches, with
what that rule has seen; what a later proof needs to know about a step it takes from this list. The
comment rule is the only one that the switch for comments reaches, and it is tried first.
-/

namespace QueryHighlight.Scan
open Text

/-- Everything that a step between tokens can claim, and what stands there when it does. -/
inductive StartClaim (comments : Bool) (rest : List Char) : Match → Prop
  | comment {after : List Char} (enabled : comments = true) (starts : rest = '#' :: after)
      (clear : after.any isTerminator = false) :
      StartClaim comments rest { tag := .comment, size := rest.length }
  | opener {found : Match} (claimed : openerRule rest = some found) :
      StartClaim comments rest found
  | numeral {tag : Tag} {size : Nat} (known : numeral? rest = some (tag, size)) :
      StartClaim comments rest { tag, size }
  | name {size : Nat} (known : nameSize? rest = some size) :
      StartClaim comments rest { tag := .identifier, size }
  | openBracket {c : Char} {after : List Char} (starts : rest = c :: after)
      (isOpen : isOpenBracket c = true) :
      StartClaim comments rest { tag := .bracketOpen, size := 1 }
  | closeBracket {c : Char} {after : List Char} (starts : rest = c :: after)
      (isClose : isCloseBracket c = true) :
      StartClaim comments rest { tag := .bracketClose, size := 1 }
  | blanks (positive : 0 < (rest.takeWhile isBlank).length) :
      StartClaim comments rest
        { tag := .whitespace, size := (rest.takeWhile isBlank).length }
  | unclaimed (refused : ∀ rule ∈ startRules comments, rule rest = none) :
      StartClaim comments rest { tag := .invalid, size := 1 }

variable {comments : Bool} {c : Char} {rest : List Char} {found : Match}

theorem findSome?_cons_eq_or {α β : Type} (f : α → Option β) (first : α) (others : List α) :
    (first :: others).findSome? f = (f first).or (others.findSome? f) := by
  rw [List.findSome?_cons]
  cases f first <;> rfl

/-- The rules between tokens one behind the other. -/
theorem startMatch_eq_or (comments : Bool) (rest : List Char) :
    startMatch comments rest =
      ((commentRule comments rest).or ((openerRule rest).or ((numeralRule rest).or
        ((nameRule rest).or ((bracketRule rest).or (blankRule rest)))))).getD
          { tag := .invalid, size := 1 } := by
  simp only [startMatch, startRules, findSome?_cons_eq_or, List.findSome?_nil, Option.or_none]

theorem exists_comment (claimed : commentRule comments rest = some found) :
    ∃ after, rest = '#' :: after ∧ comments = true ∧ after.any isTerminator = false ∧
      found = { tag := .comment, size := rest.length } := by
  cases rest with
  | nil => cases claimed
  | cons c after =>
    simp only [commentRule, Option.ite_none_right_eq_some, Bool.and_eq_true, beq_iff_eq,
      Bool.not_eq_true', Option.some.injEq] at claimed
    obtain ⟨⟨⟨enabled, rfl⟩, clear⟩, same⟩ := claimed
    exact ⟨after, rfl, enabled, clear, same.symm⟩

theorem startClaim_of_bracketRule (claimed : bracketRule rest = some found) :
    StartClaim comments rest found := by
  cases rest with
  | nil => cases claimed
  | cons c after =>
    rw [bracketRule] at claimed
    split at claimed
    next isOpen =>
      cases claimed
      exact .openBracket rfl isOpen
    next =>
      obtain ⟨isClose, same⟩ := Option.ite_none_right_eq_some.mp claimed
      cases same
      exact .closeBracket rfl isClose

theorem startClaim_of_rule {rule : Rule} (member : rule ∈ startRules comments)
    (claimed : rule rest = some found) : StartClaim comments rest found := by
  simp only [startRules, List.mem_cons, List.not_mem_nil, or_false] at member
  rcases member with rfl | rfl | rfl | rfl | rfl | rfl
  · obtain ⟨after, starts, enabled, clear, rfl⟩ := exists_comment claimed
    exact .comment enabled starts clear
  · exact .opener claimed
  · obtain ⟨⟨tag, size⟩, known, same⟩ := Option.map_eq_some_iff.mp claimed
    cases same
    exact .numeral known
  · obtain ⟨size, known, same⟩ := Option.map_eq_some_iff.mp claimed
    cases same
    exact .name known
  · exact startClaim_of_bracketRule claimed
  · obtain ⟨positive, same⟩ := Option.ite_none_right_eq_some.mp claimed
    cases same
    exact .blanks positive

theorem startClaim (comments : Bool) (rest : List Char) :
    StartClaim comments rest (startMatch comments rest) := by
  unfold startMatch
  cases known : (startRules comments).findSome? fun rule => rule rest with
  | none =>
    apply StartClaim.unclaimed
    intro rule member
    exact List.findSome?_eq_none_iff.mp known rule member
  | some found =>
    obtain ⟨rule, member, claimed⟩ := List.exists_of_findSome?_eq_some known
    exact startClaim_of_rule member claimed

/-- Where no comment starts, the switch makes no difference. -/
theorem startMatch_eq_getD (comments : Bool) (rest : List Char) :
    startMatch comments rest = (commentRule comments rest).getD (startMatch false rest) := by
  have never : commentRule false rest = none := by
    cases rest <;> simp [commentRule]
  simp only [startMatch, startRules, List.findSome?_cons, never]
  cases commentRule comments rest <;> rfl

theorem openerAt_eq_none (noQuote : Quote.ofChar? c = none) (size : Nat) (rest : List Char) :
    openerAt size (c :: rest) = none := by
  cases rest with
  | nil => rfl
  | cons d others => rw [openerAt, noQuote, Option.map_none, ite_self]

/-- An opener starts with its quote or with the letter. -/
theorem openerRule_eq_none (noQuote : Quote.ofChar? c = none) (noLetter : c ≠ 'i')
    (rest : List Char) : openerRule (c :: rest) = none := by
  rw [openerRule, if_neg noLetter, openerAt_eq_none noQuote]

/-- A number starts with a digit or with its point. -/
theorem numeral?_eq_none (notDigit : c.isDigit = false) (notPoint : c ≠ '.') :
    numeral? (c :: rest) = none := by
  have notZero : c ≠ '0' := by
    rintro rfl
    exact absurd notDigit (by decide)
  have noDigits : digitCount (c :: rest) = 0 := by
    rw [digitCount, List.takeWhile_cons, notDigit]
    rfl
  have noPoint : pointSize? (c :: rest) = none := by
    simp [pointSize?, noDigits, notPoint]
  have noWhole : wholeSize? (c :: rest) = none := by
    simp [wholeSize?, noDigits]
  have noInteger : integerSizes (c :: rest) = [] := by
    cases rest <;> simp [integerSizes, decimalSize?, hexSize?, notZero, notDigit]
  simp [numeral?, floatSize?, integer?, noPoint, noWhole, noInteger]

end QueryHighlight.Scan
