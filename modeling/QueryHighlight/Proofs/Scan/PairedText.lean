import QueryHighlight.Proofs.Scan.Emission
import QueryHighlight.Proofs.Scan.Parity

/-!
What a literal goes through before it ends. Content and escapes never part a backslash from the
character behind it, whether or not the two are an escape, so a quote that is reached on its own
has an even number of backslashes before it.
-/

namespace QueryHighlight.Scan
open Text

/-- A backslash takes the character behind it along, and every other character is no quote. -/
inductive PairedText (quote : Quote) : List Char → Prop
  | nil : PairedText quote []
  | plain {c : Char} {rest : List Char} (single : c ≠ '\\') (inside : c ≠ quote.char)
      (later : PairedText quote rest) : PairedText quote (c :: rest)
  | pair {c : Char} {rest : List Char} (later : PairedText quote rest) :
      PairedText quote ('\\' :: c :: rest)

variable {quote : Quote} {first second rest text : List Char}

theorem PairedText.append (before : PairedText quote first) (behind : PairedText quote second) :
    PairedText quote (first ++ second) := by
  induction before with
  | nil => exact behind
  | plain single inside later ih => exact .plain single inside ih
  | pair later ih => exact .pair ih

theorem eq_backslash_of_mem {c : Char} (member : backslash ∈ String.utf8EncodeChar c) : c = '\\' :=
  eq_of_mem_utf8EncodeChar (by decide) rfl member

theorem eq_quote_of_mem {c : Char} (member : quote.byte ∈ String.utf8EncodeChar c) :
    c = quote.char := by
  cases quote <;> exact eq_of_mem_utf8EncodeChar (by decide) rfl member

/-- The quote behind a backslash is the second byte of the two, so one backslash stands before it. -/
theorem goesThrough_pair (quote : Quote) (c : Char) :
    GoesThrough quote (backslash :: String.utf8EncodeChar c) where
  stays := by
    intro index closes
    obtain ⟨found, paired⟩ := closes
    cases index with
    | zero => exact quote.byte_ne_backslash (Option.some.inj found).symm
    | succ index =>
      rw [List.getElem?_cons_succ] at found
      have isQuote : c = quote.char := eq_quote_of_mem (List.mem_of_getElem? found)
      have single : String.utf8EncodeChar c = [quote.byte] := by
        rw [isQuote]
        cases quote <;> rfl
      rw [single] at found
      obtain ⟨bound, -⟩ := List.getElem?_eq_some_iff.mp found
      have first : index = 0 := Nat.lt_one_iff.mp bound
      rw [first, List.take_succ_cons, List.take_zero] at paired
      exact absurd paired (by decide)
  paired := by
    by_cases double : c = '\\'
    · rw [double]
      rfl
    · have none := backslashRun_append_of_not_mem [backslash] String.utf8EncodeChar_ne_nil
        fun member => double (eq_backslash_of_mem member)
      rw [List.singleton_append] at none
      rw [none]

theorem PairedText.goesThrough (paired : PairedText quote text) : GoesThrough quote (bytes text) := by
  induction paired with
  | nil => exact goesThrough_nil
  | plain single inside later ih =>
    rw [bytes_cons]
    refine GoesThrough.append (goesThrough_of_not_mem ?_ ?_) ih
    · exact fun member => single (eq_backslash_of_mem member)
    · exact fun member => inside (eq_quote_of_mem member)
  | pair later ih =>
    rw [bytes_cons, bytes_cons, ← List.append_assoc]
    exact GoesThrough.append (goesThrough_pair quote _) ih

theorem pairedText_of_digits (quote : Quote) {digits : List Char}
    (areDigits : ∀ d ∈ digits, isHexDigit d = true) : PairedText quote digits := by
  induction digits with
  | nil => exact .nil
  | cons d digits ih =>
    have first := areDigits d List.mem_cons_self
    refine .plain ?_ ?_ (ih fun e member => areDigits e (List.mem_cons_of_mem d member))
    · rintro rfl
      exact absurd first (by decide)
    · rintro rfl
      cases quote <;> exact absurd first (by decide)

theorem pairedText_escape (quote : Quote) {size : Nat} (found : escapeSize? rest = some size) :
    PairedText quote (rest.take size) := by
  obtain ⟨c, digits, escape⟩ := exists_isEscape found
  obtain ⟨further, same⟩ := escape.starts
  have taken : rest.take size = '\\' :: c :: digits := by
    rw [escape.length, same, List.take_succ_cons, List.take_succ_cons, List.take_left]
  rw [taken]
  exact .pair (pairedText_of_digits quote escape.areDigits)

theorem isContent_iff {c : Char} :
    isContent quote (c :: rest) = true ↔
      c ≠ quote.char ∧ escapeSize? (c :: rest) = none ∧ isContinuation (c :: rest) = false := by
  rw [isContent, Bool.and_eq_true, Bool.and_eq_true, bne_iff_ne, Option.isNone_iff_eq_none,
    Bool.not_eq_true', and_assoc]

theorem isContent_plain {c : Char} (single : c ≠ '\\') (inside : c ≠ quote.char) :
    isContent quote (c :: rest) = true := by
  refine isContent_iff.mpr ⟨inside, ?_, ?_⟩
  · cases rest with
    | nil => rfl
    | cons d rest => rw [escapeSize?, if_pos single]
  · cases rest with
    | nil => exact beq_false_of_ne single
    | cons d rest => rfl

/-- Behind a dead backslash stands a character that is content on its own. -/
theorem exists_behind_dead (dead : isContent quote ('\\' :: rest) = true) :
    ∃ c further, rest = c :: further ∧ c ≠ '\\' ∧ c ≠ quote.char := by
  obtain ⟨-, noEscape, goesOn⟩ := isContent_iff.mp dead
  cases rest with
  | nil => exact absurd goesOn (by decide)
  | cons c further =>
    refine ⟨c, further, rfl, ?_, ?_⟩
    · rintro rfl
      cases noEscape
    · rintro rfl
      cases quote <;> cases noEscape

theorem pairedText_content (quote : Quote) (rest : List Char) :
    PairedText quote (rest.take (contentSize quote rest)) := by
  match rest with
  | [] => exact .nil
  | c :: rest =>
    rw [contentSize]
    by_cases inside : isContent quote (c :: rest) = true
    · rw [if_pos inside, List.take_succ_cons]
      by_cases dead : c = '\\'
      · obtain ⟨d, further, same, single, other⟩ := exists_behind_dead (dead ▸ inside)
        have shorter : further.length < rest.length := by
          rw [same]
          exact Nat.lt_succ_self _
        rw [dead, same, contentSize, if_pos (isContent_plain single other), List.take_succ_cons]
        exact .pair (pairedText_content quote further)
      · exact .plain dead (isContent_iff.mp inside).1 (pairedText_content quote rest)
    · rw [if_neg inside]
      exact .nil
termination_by rest.length

end QueryHighlight.Scan
