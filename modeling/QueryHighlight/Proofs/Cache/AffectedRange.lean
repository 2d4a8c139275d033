import QueryHighlight.Proofs.Cache.History

/-!
The range of lines that an edit reports. In front of it and behind it a document keeps all that
was known of its lines, so a host that paints the range again misses nothing. Nor is the range too
wide: it holds the inserted lines and, of the old ones, only those that another state reaches now.
-/

namespace QueryHighlight
open Scan

namespace CachedLine

variable {τ : Type} [LineTokenizer τ] {tokenizer : τ} {entry : State} {lines : List CachedLine}

/-- The state that reaches the line at `index` of a document. -/
def stateBefore (lines : List CachedLine) (index : Nat) : State :=
  exitState .start (lines.take index)

theorem Threaded.eq_fresh (threaded : Threaded tokenizer entry lines) {index : Nat}
    {line : CachedLine} (found : lines[index]? = some line) :
    line = fresh tokenizer (exitState entry (lines.take index)) line.text := by
  obtain ⟨bound, rfl⟩ := List.getElem?_eq_some_iff.mp found
  have behind := threaded.drop index
  rw [List.drop_eq_getElem_cons bound] at behind
  exact behind.1

/-- Settling keeps every line behind those that it tokenizes again. -/
theorem settle_kept (tokenizer : τ) (entry : State) (lines : List CachedLine) :
    (settle tokenizer entry lines).2 =
      lines.drop (settle tokenizer entry lines).1.length := by
  induction lines generalizing entry with
  | nil => rfl
  | cons line rest ih =>
    rw [settle]
    split
    · rfl
    · exact ih _

/-- A line is tokenized again only where its old start state is not the one that reaches it. -/
theorem startState_ne_of_redone {index : Nat} {again : CachedLine}
    (redone : (settle tokenizer entry lines).1[index]? = some again) :
    ∃ line, lines[index]? = some line ∧ again.text = line.text ∧
      again.startState ≠ line.startState := by
  induction lines generalizing entry index with
  | nil => cases redone
  | cons line rest ih =>
    rw [settle] at redone
    split at redone
    next agrees => cases redone
    next differs =>
      cases index with
      | zero =>
        cases redone
        exact ⟨line, rfl, rfl, Ne.symm differs⟩
      | succ index => exact ih redone

end CachedLine

namespace HighlightCache
open CachedLine

variable {τ : Type} (cache : HighlightCache τ) (start removed : Nat) (inserted : List String)

/-- The old number of the line that an edit moves to `index`, a place behind the inserted lines. -/
def oldIndex (index : Nat) : Nat := index - inserted.length + cache.removedCount start removed

theorem getElem?_linesBehind {index : Nat} (behind : cache.editStart start + inserted.length ≤ index) :
    (cache.linesBehind start removed)[index - (cache.editStart start + inserted.length)]? =
      cache.lines[cache.oldIndex start removed inserted index]? := by
  have place : cache.editStart start + cache.removedCount start removed +
      (index - (cache.editStart start + inserted.length)) =
        cache.oldIndex start removed inserted index := by
    rw [oldIndex]
    omega
  rw [linesBehind_eq_drop, List.getElem?_drop, place]

variable [LineTokenizer τ]

theorem length_linesUpTo :
    (cache.linesUpTo start inserted).length = cache.editStart start + inserted.length := by
  rw [linesUpTo, List.length_append, List.length_take, length_freshLines, Nat.min_assoc,
    Nat.min_self, editStart]

theorem stop_replaceLines : (cache.replaceLines start removed inserted).2.stop =
    cache.editStart start + inserted.length +
      (cache.settledBehind start removed inserted).1.length := rfl

theorem stop_le_length : (cache.replaceLines start removed inserted).2.stop ≤
    (cache.replaceLines start removed inserted).1.lines.length := by
  rw [stop_replaceLines, lines_replaceLines, List.length_append, List.length_append,
    length_linesUpTo, ← Nat.add_assoc]
  exact Nat.le_add_right _ _

theorem getElem?_before_edit {index : Nat} (before : index < cache.editStart start) :
    (cache.replaceLines start removed inserted).1.lines[index]? = cache.lines[index]? := by
  have inUpTo : index < (cache.linesUpTo start inserted).length := by
    rw [length_linesUpTo]
    exact Nat.lt_add_right _ before
  have inTaken : index < (cache.lines.take (cache.editStart start)).length := by
    rw [List.length_take]
    exact Nat.lt_min.mpr ⟨before, Nat.lt_of_lt_of_le before (Nat.min_le_right _ _)⟩
  rw [lines_replaceLines, List.getElem?_append_left inUpTo, linesUpTo, ← editStart,
    List.getElem?_append_left inTaken, List.getElem?_take_of_lt before]

/-- The lines behind the inserted ones are the settled ones, in their old order. -/
theorem getElem?_behind_edit {index : Nat} (behind : cache.editStart start + inserted.length ≤ index) :
    (cache.replaceLines start removed inserted).1.lines[index]? =
      ((cache.settledBehind start removed inserted).1 ++
        (cache.settledBehind start removed inserted).2)[index -
          (cache.editStart start + inserted.length)]? := by
  rw [← length_linesUpTo] at behind ⊢
  rw [lines_replaceLines, List.getElem?_append_right behind]

theorem getElem?_behind_range {index : Nat}
    (behind : (cache.replaceLines start removed inserted).2.stop ≤ index) :
    (cache.replaceLines start removed inserted).1.lines[index]? =
      cache.lines[cache.oldIndex start removed inserted index]? := by
  rw [stop_replaceLines] at behind
  have behindEdit : cache.editStart start + inserted.length ≤ index :=
    Nat.le_trans (Nat.le_add_right _ _) behind
  have behindRedone : (cache.settledBehind start removed inserted).1.length ≤
      index - (cache.editStart start + inserted.length) := Nat.le_sub_of_add_le' behind
  rw [getElem?_behind_edit _ _ _ _ behindEdit, List.getElem?_append_right behindRedone,
    ← getElem?_linesBehind _ _ _ _ behindEdit, settledBehind, settle_kept, List.getElem?_drop]
  congr 1
  exact Nat.add_sub_cancel' behindRedone

/-- The old lines that an edit tokenizes again. -/
theorem exists_redone {index : Nat} (behind : cache.editStart start + inserted.length ≤ index)
    (inside : index < (cache.replaceLines start removed inserted).2.stop) :
    ∃ line again, cache.lines[cache.oldIndex start removed inserted index]? = some line ∧
      (cache.replaceLines start removed inserted).1.lines[index]? = some again ∧
      again.text = line.text ∧ again.startState ≠ line.startState := by
  rw [stop_replaceLines] at inside
  have redone : index - (cache.editStart start + inserted.length) <
      (cache.settledBehind start removed inserted).1.length := Nat.sub_lt_left_of_lt_add behind inside
  obtain ⟨line, found, text, differs⟩ := startState_ne_of_redone (List.getElem?_eq_getElem redone)
  rw [getElem?_linesBehind _ _ _ _ behind] at found
  refine ⟨line, _, found, ?_, text, differs⟩
  rw [getElem?_behind_edit _ _ _ _ behind, List.getElem?_append_left redone,
    List.getElem?_eq_getElem redone]

variable {cache} in
/-- In a consistent cache every line is tokenized from the state that reaches it. -/
theorem Consistent.eq_fresh (consistent : cache.Consistent) {index : Nat} {line : CachedLine}
    (found : cache.lines[index]? = some line) :
    line = fresh cache.tokenizer (stateBefore cache.lines index) line.text :=
  Threaded.eq_fresh consistent found

/-- After any history of edits the range that the next edit reports starts at the edit and holds
the inserted lines, all lines outside it are the old ones, and every old line inside it is reached
by another state than before. -/
theorem replaceLines_range_exact (tokenizer : τ) (opening : Option String) (edits : List Edit)
    (start removed : Nat) (inserted : List String) :
    let old := (opened tokenizer opening).editAll edits
    let first := min start old.lines.length
    let count := min removed (old.lines.length - first)
    let new := (old.replaceLines start removed inserted).1
    let range := (old.replaceLines start removed inserted).2
    range.first = first ∧ first + inserted.length ≤ range.stop ∧
      range.stop ≤ new.lines.length ∧
      (∀ index < range.first, new.lines[index]? = old.lines[index]?) ∧
      (∀ index ≥ range.stop,
        new.lines[index]? = old.lines[index - inserted.length + count]?) ∧
      ∀ index, first + inserted.length ≤ index → index < range.stop →
        let origin := index - inserted.length + count
        ∃ line again, old.lines[origin]? = some line ∧ new.lines[index]? = some again ∧
          line = fresh tokenizer (stateBefore old.lines origin) line.text ∧
          again = fresh tokenizer (stateBefore new.lines index) line.text ∧
          stateBefore new.lines index ≠ stateBefore old.lines origin := by
  intro old first count new range
  have consistent : old.Consistent := consistent_history tokenizer opening edits
  have tokenizer_eq : old.tokenizer = tokenizer := tokenizer_history tokenizer opening edits
  refine ⟨rfl, Nat.le_add_right _ _, stop_le_length old start removed inserted, ?_, ?_, ?_⟩
  · intro index before
    exact getElem?_before_edit old start removed inserted before
  · intro index behind
    exact getElem?_behind_range old start removed inserted behind
  · intro index behind inside origin
    obtain ⟨line, again, found, settled, text, differs⟩ :=
      exists_redone old start removed inserted behind inside
    have line_eq := consistent.eq_fresh found
    have again_eq := (consistent_replaceLines consistent start removed inserted).eq_fresh settled
    rw [tokenizer_replaceLines, tokenizer_eq, text] at again_eq
    rw [tokenizer_eq] at line_eq
    refine ⟨line, again, found, settled, line_eq, again_eq, ?_⟩
    rw [again_eq, line_eq] at differs
    exact differs

end HighlightCache

end QueryHighlight
