import Mathlib.Data.List.Chain
import QueryHighlight.Proofs.Scan.Naming
import QueryHighlight.Proofs.Scan.Opening

/-!
Rules that take a run of characters take all of it: names, white space and the content of literals.
So no two names, no two pieces of white space and no two pieces of content stand side by side. A
name may leave name characters behind where it backs off, but these are no name themselves.
-/

namespace QueryHighlight.Scan
open Text

/-- Tags that never stand twice in a row. -/
def Tag.isMaximal : Tag → Bool
  | .identifier | .whitespace | .stringContent => true
  | _ => false

theorem isMaximal_of_isNumeric {tag : Tag} (numeric : tag.isNumeric = true) :
    tag.isMaximal = false := by
  revert numeric
  cases tag <;> decide

/-- A run of content ends where no content follows. -/
theorem isContent_drop_contentSize (quote : Quote) (rest : List Char) :
    isContent quote (rest.drop (contentSize quote rest)) = false := by
  induction rest with
  | nil => rfl
  | cons c rest ih =>
    rw [contentSize]
    split
    next => exact ih
    next outside => exact Bool.eq_false_iff.mpr outside

theorem takeWhile_drop_takeWhile (isMember : Char → Bool) (rest : List Char) :
    (rest.drop (rest.takeWhile isMember).length).takeWhile isMember = [] := by
  induction rest with
  | nil => rfl
  | cons c rest ih =>
    by_cases member : isMember c = true
    · rw [List.takeWhile_cons, if_pos member, List.length_cons, List.drop_succ_cons]
      exact ih
    · rw [List.takeWhile_cons, if_neg member, List.length_nil, List.drop_zero, List.takeWhile_cons,
        if_neg member]

/-- A step that takes all it can. -/
inductive MaximalStep (rest : List Char) : State → Match → Prop
  | name {size : Nat} (known : nameSize? rest = some size) :
      MaximalStep rest .start { tag := .identifier, size }
  | blanks (positive : 0 < (rest.takeWhile isBlank).length) :
      MaximalStep rest .start { tag := .whitespace, size := (rest.takeWhile isBlank).length }
  | content {quote : Quote} (inside : isContent quote rest = true) :
      MaximalStep rest (.string quote)
        { tag := .stringContent, size := contentSize quote rest, state := .string quote }

theorem maximalStep {comments : Bool} {state : State} {rest : List Char} (unread : rest ≠ [])
    (maximal : (Scanner.matchAt comments state rest).tag.isMaximal = true) :
    MaximalStep rest state (Scanner.matchAt comments state rest) := by
  cases state with
  | start =>
    simp only [Scanner.matchAt] at maximal ⊢
    have claim := startClaim comments rest
    generalize startMatch comments rest = found at claim maximal ⊢
    cases claim with
    | name known => exact .name known
    | blanks positive => exact .blanks positive
    | comment => cases maximal
    | openBracket => cases maximal
    | closeBracket => cases maximal
    | unclaimed => cases maximal
    | opener claimed =>
      obtain ⟨quote, opens, -, -⟩ := exists_quote_of_openerRule claimed
      rw [opens] at maximal
      cases maximal
    | numeral known =>
      have other := isMaximal_of_isNumeric (isNumeric_of_numeral? known)
      exact absurd maximal (Bool.eq_false_iff.mp other)
  | string quote =>
    simp only [Scanner.matchAt] at maximal ⊢
    have step := stringStep quote unread
    generalize stringMatch quote rest = found at step maximal ⊢
    cases step with
    | content inside => exact .content inside
    | escape => cases maximal
    | continuation => cases maximal
    | closer => cases maximal

/-- Behind a step that took all it could another one has nothing to take. -/
theorem MaximalStep.tag_ne {rest : List Char} {state : State} {found further : Match}
    (first : MaximalStep rest state found)
    (second : MaximalStep (rest.drop found.size) found.state further) :
    further.tag ≠ found.tag := by
  intro same
  cases first with
  | name known =>
    cases second with
    | name again =>
      rw [nameSize?_behind_name known] at again
      cases again
    | blanks => cases same
  | blanks =>
    cases second with
    | name => cases same
    | blanks positive =>
      rw [takeWhile_drop_takeWhile] at positive
      exact absurd positive (Nat.lt_irrefl 0)
  | content inside =>
    cases second with
    | content again =>
      rw [isContent_drop_contentSize] at again
      cases again

namespace Scanner

variable {scanner : Scanner}

theorem tag_next_next_ne (unread : scanner.rest ≠ []) (goesOn : scanner.next.2.rest ≠ [])
    (maximal : scanner.next.1.tag.isMaximal = true) :
    scanner.next.2.next.1.tag ≠ scanner.next.1.tag := by
  intro same
  have again : scanner.next.2.next.1.tag.isMaximal = true := same ▸ maximal
  rw [tag_next unread] at maximal same
  rw [tag_next goesOn] at again same
  have first := maximalStep unread maximal
  have second := maximalStep goesOn again
  rw [state_next unread, rest_next unread] at second same
  exact first.tag_ne second same

theorem isChain_drain (scanner : Scanner) :
    scanner.drain.lexemes.IsChain fun first second =>
      first.tag.isMaximal = true → second.tag ≠ first.tag := by
  fun_induction drain scanner with
  | case1 => exact .nil
  | case2 scanner unread tail ih =>
    rw [List.isChain_cons]
    refine ⟨?_, ih⟩
    intro second head maximal
    by_cases ended : scanner.next.2.rest = []
    · simp only [tail, drain_of_ended ended] at head
      cases head
    · simp only [tail, drain_of_unread ended, List.head?_cons, Option.mem_some] at head
      rw [← head]
      exact tag_next_next_ne unread ended maximal

end Scanner

end QueryHighlight.Scan
