import Mathlib.Data.List.Sort
import Mathlib.Data.String.Basic
import QueryHighlight.Proofs.Text.ByteOrder
import QueryHighlight.WordSet

/-!
Sets of words as they are walked over. A set has an order of its own for its words, and every walk
may use another one; sorted, the words of every walk are the same list. Two sets with the same words
are one set.
-/

namespace QueryHighlight

/-- What sorting by a key yields. Items with the same key may come in any order. -/
structure IsSorting {α : Type} (key : α → String) (items sorted : List α) : Prop where
  perm : sorted.Perm items
  ordered : sorted.Pairwise fun first second => Text.utf8 (key first) ≤ Text.utf8 (key second)

namespace WordSet

theorem contains_iff_mem {set : WordSet} {word : String} :
    set.contains word = true ↔ word ∈ set.words := List.contains_iff_mem

theorem ext_contains {first second : WordSet}
    (same : ∀ word, first.contains word = true ↔ second.contains word = true) : first = second := by
  obtain ⟨words, ascending⟩ := first
  obtain ⟨others, othersAscending⟩ := second
  have words_eq : words = others := by
    apply ascending.eq_of_mem_iff othersAscending
    intro word
    simpa only [contains_iff_mem] using same word
  subst words_eq
  rfl

/-- What a set is made from counts only by the words that are in it. -/
theorem ofList_congr {first second : List String} (same : ∀ word, word ∈ first ↔ word ∈ second) :
    ofList first = ofList second := by
  apply ext_contains
  intro word
  simpa only [contains_ofList, List.contains_iff_mem] using same word

theorem contains_filter (set : WordSet) (accepts : String → Bool) (word : String) :
    (set.filter accepts).contains word = (set.contains word && accepts word) := by
  rw [Bool.eq_iff_iff, Bool.and_eq_true, contains_iff_mem, contains_iff_mem]
  exact List.mem_filter

theorem contains_union (first second : WordSet) (word : String) :
    (first.union second).contains word = (first.contains word || second.contains word) :=
  contains_foldl_insert first second.words word

/-- The words of a set, each of them once, in the order of some walk over the set. -/
structure Walk (set : WordSet) where
  words : List String
  nodup : words.Nodup
  mem_iff : ∀ word, word ∈ words ↔ set.contains word = true

theorem nodup (set : WordSet) : set.words.Nodup := set.ascending.imp fun less => Std.ne_of_lt less

theorem ordered (set : WordSet) :
    set.words.Pairwise fun first second => Text.utf8 first ≤ Text.utf8 second :=
  set.ascending.imp fun less => Text.utf8_le_iff.mpr (Std.le_of_lt less)

/-- A set may be walked over in its own order. -/
instance (set : WordSet) : Inhabited set.Walk :=
  ⟨⟨set.words, set.nodup, fun _ => contains_iff_mem.symm⟩⟩

/-- The set's own order the other way round is another walk. -/
def Walk.backwards (set : WordSet) : set.Walk where
  words := set.words.reverse
  nodup := List.nodup_reverse.mpr set.nodup
  mem_iff word := by rw [List.mem_reverse, contains_iff_mem]

theorem Walk.perm {set : WordSet} (walk : set.Walk) : walk.words.Perm set.words := by
  apply (List.perm_ext_iff_of_nodup walk.nodup set.nodup).mpr
  intro word
  rw [walk.mem_iff, contains_iff_mem]

/-- Sorting forgets the order of a walk. -/
theorem Walk.eq_words {set : WordSet} {sorted : List String} (walk : set.Walk)
    (sorting : IsSorting id walk.words sorted) : sorted = set.words := by
  refine List.Perm.eq_of_pairwise ?_ sorting.ordered set.ordered (sorting.perm.trans walk.perm)
  intro first second _ _ before behind
  exact String.le_antisymm (Text.utf8_le_iff.mp before) (Text.utf8_le_iff.mp behind)

end WordSet

end QueryHighlight
