import QueryHighlight.Proofs.Text.Ascii
import QueryHighlight.Scan.State

/-!
Which quotes close a literal, told by counting backslashes. A quote closes unless an odd number of
backslashes stands directly before it; an even number in front of a text changes nothing for what
follows, so a text that ends on an even number and holds no closing quote can be left out.
-/

namespace QueryHighlight.Scan
open Text

def backslash : UInt8 := 0x5c

/-- Number of backslashes that the bytes end on. -/
def backslashRun (bytes : List UInt8) : Nat := (bytes.reverse.takeWhile (· == backslash)).length

/-- The byte at `index` is the quote, and the backslashes in the body before it go in pairs. -/
def ClosesAt (quote : Quote) (body : List UInt8) (index : Nat) : Prop :=
  body[index]? = some quote.byte ∧ backslashRun (body.take index) % 2 = 0

instance (quote : Quote) (body : List UInt8) (index : Nat) : Decidable (ClosesAt quote body index) :=
  inferInstanceAs (Decidable (_ ∧ _))

/-- A literal goes through all these bytes, and what follows them is not escaped. -/
structure GoesThrough (quote : Quote) (body : List UInt8) : Prop where
  stays : ∀ index, ¬ClosesAt quote body index
  paired : backslashRun body % 2 = 0

variable {quote : Quote} {first second body : List UInt8} {index : Nat}

theorem Quote.byte_ne_backslash (quote : Quote) : quote.byte ≠ backslash := by
  cases quote <;> decide

theorem backslashRun_append (first second : List UInt8) :
    backslashRun (first ++ second) =
      if backslashRun second = second.length then second.length + backslashRun first
      else backslashRun second := by
  rw [backslashRun, List.reverse_append, List.takeWhile_append, List.length_reverse]
  change (if backslashRun second = second.length then _ else _ : List UInt8).length = _
  by_cases all : backslashRun second = second.length
  · rw [if_pos all, if_pos all, List.length_append, List.length_reverse]
    rfl
  · rw [if_neg all, if_neg all]
    rfl

theorem backslashRun_append_mod (paired : backslashRun first % 2 = 0) (second : List UInt8) :
    backslashRun (first ++ second) % 2 = backslashRun second % 2 := by
  rw [backslashRun_append]
  split
  next all =>
    rw [all]
    omega
  next => rfl

theorem backslashRun_append_of_not_mem (first : List UInt8) (nonempty : second ≠ [])
    (clear : backslash ∉ second) : backslashRun (first ++ second) = 0 := by
  have other : ¬(second.getLast nonempty == backslash) = true := by
    intro same
    exact clear (eq_of_beq same ▸ List.getLast_mem nonempty)
  rw [← List.dropLast_concat_getLast nonempty, ← List.append_assoc, backslashRun,
    List.reverse_append, List.reverse_singleton, List.singleton_append, List.takeWhile_cons, if_neg]
  · rfl
  · exact other

theorem closesAt_append_left (inside : index < first.length) :
    ClosesAt quote (first ++ second) index ↔ ClosesAt quote first index := by
  rw [ClosesAt, ClosesAt, List.getElem?_append_left inside,
    List.take_append_of_le_length (Nat.le_of_lt inside)]

theorem closesAt_append_right (paired : backslashRun first % 2 = 0) :
    ClosesAt quote (first ++ second) (first.length + index) ↔ ClosesAt quote second index := by
  rw [ClosesAt, ClosesAt, List.getElem?_append_right (Nat.le_add_right _ _),
    Nat.add_sub_cancel_left, List.take_length_add_append, backslashRun_append_mod paired]

/-- The first place at which a literal can close lies behind the bytes that it goes through. -/
theorem GoesThrough.le_of_closesAt (through : GoesThrough quote first)
    (closes : ClosesAt quote (first ++ second) index) : first.length ≤ index := by
  refine Nat.le_of_not_lt fun inside => ?_
  exact through.stays index ((closesAt_append_left inside).mp closes)

theorem GoesThrough.append (before : GoesThrough quote first) (behind : GoesThrough quote second) :
    GoesThrough quote (first ++ second) where
  stays := by
    intro index closes
    obtain ⟨further, rfl⟩ := Nat.exists_eq_add_of_le (before.le_of_closesAt closes)
    exact behind.stays further ((closesAt_append_right before.paired).mp closes)
  paired := by rw [backslashRun_append_mod before.paired, behind.paired]

theorem goesThrough_nil : GoesThrough quote [] where
  stays := fun _ closes => nomatch closes.1
  paired := rfl

/-- Bytes without a backslash and without the quote change nothing. -/
theorem goesThrough_of_not_mem (noBackslash : backslash ∉ body) (noQuote : quote.byte ∉ body) :
    GoesThrough quote body where
  stays := fun _ closes => noQuote (List.mem_of_getElem? closes.1)
  paired := by
    by_cases empty : body = []
    · rw [empty]
      rfl
    · have none := backslashRun_append_of_not_mem [] empty noBackslash
      rw [List.nil_append] at none
      rw [none]

end QueryHighlight.Scan
