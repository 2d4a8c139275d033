import QueryHighlight.Proofs.Cache.AffectedRange
import QueryHighlight.Proofs.Scan.Carry

/-!
How far an edit spills over to the lines behind it. Where a line leaves the start state behind no
matter how it was entered, two tokenizations of the same lines agree from the next line on, and a
cache that was right before the edit is right again. In a query only lines that end in a backslash
can do otherwise, so an edit spills over the unbroken row of such lines behind it, and one more.
-/

namespace QueryHighlight
open Scan

/-- Only the lines of a class can leave a state behind that is not the start state. -/
def CarriesOnly {τ : Type} [LineTokenizer τ] (tokenizer : τ) (carries : String → Bool) : Prop :=
  ∀ state line, carries line = false → (tokenizeLine tokenizer state line).endState = .start

theorem carriesOnly_endsInBackslash (tokenizer : QueryTokenizer) :
    CarriesOnly tokenizer endsInBackslash :=
  fun state _ stops => endState_scanLine tokenizer.comments state stops

section

variable {τ : Type} [LineTokenizer τ] {tokenizer : τ} {carries : String → Bool}

/-- Behind a line that carries nothing it makes no difference in which state the lines began. -/
theorem CarriesOnly.tokenizeLines_eq (only : CarriesOnly tokenizer carries) {lines : List String}
    {earlier index : Nat} {line : String} (found : lines[earlier]? = some line)
    (stops : carries line = false) (behind : earlier < index) (first second : State) :
    (tokenizeLines tokenizer first lines)[index]? =
      (tokenizeLines tokenizer second lines)[index]? := by
  induction lines generalizing earlier index first second with
  | nil => cases found
  | cons head rest ih =>
    obtain ⟨index, rfl⟩ := Nat.exists_eq_add_one_of_ne_zero (Nat.ne_zero_of_lt behind)
    rw [tokenizeLines, tokenizeLines, List.getElem?_cons_succ, List.getElem?_cons_succ]
    cases earlier with
    | zero =>
      cases found
      rw [only first line stops, only second line stops]
    | succ earlier => exact ih found (Nat.lt_of_succ_lt_succ behind) _ _

namespace CachedLine

/-- Lines that are reached by the state that they were tokenized from need nothing. -/
theorem settle_of_threaded {entry : State} {lines : List CachedLine}
    (threaded : Threaded tokenizer entry lines) : settle tokenizer entry lines = ([], lines) := by
  cases lines with
  | nil => rfl
  | cons line rest =>
    have agrees : line.startState = entry := by
      rw [threaded.1]
      rfl
    rw [settle, if_pos agrees]

/-- Settling stops one line behind a row of lines that may carry a state on. -/
theorem length_redone_le (only : CarriesOnly tokenizer carries) {before : State} (entry : State)
    {lines : List CachedLine} (threaded : Threaded tokenizer before lines) :
    (settle tokenizer entry lines).1.length ≤
      (lines.takeWhile fun line => carries line.text).length + 1 := by
  induction lines generalizing before entry with
  | nil => exact Nat.zero_le _
  | cons line rest ih =>
    obtain ⟨same, later⟩ := threaded
    rw [settle]
    split
    · exact Nat.zero_le _
    · rw [List.length_cons, List.takeWhile_cons]
      cases carried : carries line.text with
      | true => exact Nat.succ_le_succ (ih _ later)
      | false =>
        -- Both tokenizations of the line leave the start state, so the old rest still holds.
        have endState_eq : line.endState = .start := by
          rw [same]
          exact only before line.text carried
        have again : (fresh tokenizer entry line.text).endState = .start :=
          only entry line.text carried
        rw [endState_eq] at later
        rw [again, settle_of_threaded later]
        exact Nat.le_refl 1

end CachedLine

open HighlightCache CachedLine

theorem HighlightCache.Consistent.stop_le {cache : HighlightCache τ}
    (consistent : cache.Consistent) (only : CarriesOnly cache.tokenizer carries)
    (start removed : Nat) (inserted : List String) :
    (cache.replaceLines start removed inserted).2.stop ≤
      cache.editStart start + inserted.length +
        (((cache.linesBehind start removed).takeWhile fun line => carries line.text).length + 1) := by
  rw [stop_replaceLines]
  exact Nat.add_le_add_left (length_redone_le only _ (Threaded.drop consistent _)) _

end

open HighlightCache in
/-- Edits spill only through backslashes at the ends of lines: any other line leaves the start
state behind, from the line after it on all tokenizations of the same lines agree, and the range
that an edit reports ends one line behind the row of such lines that follow the inserted ones, if
not before. -/
theorem spill_through_backslashes (tokenizer : QueryTokenizer) :
    (∀ (state : State) (line : String), endsInBackslash line = false →
      (tokenizeLine tokenizer state line).endState = .start) ∧
    (∀ (first second : State) (lines : List String) (earlier index : Nat) (line : String),
      lines[earlier]? = some line → endsInBackslash line = false → earlier < index →
      (tokenizeLines tokenizer first lines)[index]? =
        (tokenizeLines tokenizer second lines)[index]?) ∧
    ∀ (opening : Option String) (edits : List Edit) (start removed : Nat)
      (inserted : List String),
      let old := (opened tokenizer opening).editAll edits
      let first := min start old.lines.length
      let surviving := old.lines.drop (first + min removed (old.lines.length - first))
      let carrying := surviving.takeWhile fun line => endsInBackslash line.text
      let new := (old.replaceLines start removed inserted).1
      let range := (old.replaceLines start removed inserted).2
      range.stop ≤ min new.lines.length (first + inserted.length + carrying.length + 1) := by
  have only := carriesOnly_endsInBackslash tokenizer
  refine ⟨only, ?_, ?_⟩
  · intro first second lines earlier index line found stops behind
    exact only.tokenizeLines_eq found stops behind first second
  · intro opening edits start removed inserted old first surviving carrying new range
    have consistent : old.Consistent := consistent_history tokenizer opening edits
    have tokenizer_eq : old.tokenizer = tokenizer := tokenizer_history tokenizer opening edits
    refine Nat.le_min.mpr ⟨stop_le_length old start removed inserted, ?_⟩
    have bound := consistent.stop_le (tokenizer_eq.symm ▸ only) start removed inserted
    rw [linesBehind_eq_drop] at bound
    exact bound

/-- The bound is reached where a literal is opened in front of two lines that carry it on. -/
example :
    let tokenizer : QueryTokenizer := ⟨false, ⟨.empty, .empty, .empty⟩⟩
    let cache := HighlightCache.ofText tokenizer "a\nb\\\nc\\\nd\ne"
    (cache.replaceLines 0 1 ["'x\\"]).2 = ⟨0, 4⟩ := by
  decide +kernel

end QueryHighlight
