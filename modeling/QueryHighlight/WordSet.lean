import QueryHighlight.Text.Quoted

/-!
Sets of words. A set is kept as the ascending list of its words without repeats, so that sets with
the same words are equal and every walk over a set is in byte order, whatever order the words came
in.
-/

namespace QueryHighlight

structure WordSet where
  words : List String
  ascending : words.Pairwise (· < ·)
  deriving DecidableEq

namespace WordSet

/-- Puts a word into its place in an ascending list, unless it is there already. -/
def insertInto (word : String) : List String → List String
  | [] => [word]
  | first :: rest =>
    if word < first then word :: first :: rest
    else if word = first then first :: rest
    else first :: insertInto word rest

theorem mem_insertInto {word other : String} {words : List String} :
    other ∈ insertInto word words ↔ other = word ∨ other ∈ words := by
  induction words with
  | nil => simp [insertInto]
  | cons first rest ih =>
    unfold insertInto
    split
    · simp
    · split
      next same => simp [same]
      next => simp [ih, or_left_comm]

theorem pairwise_insertInto {word : String} {words : List String}
    (ascending : words.Pairwise (· < ·)) : (insertInto word words).Pairwise (· < ·) := by
  induction words with
  | nil => simp [insertInto]
  | cons first rest ih =>
    obtain ⟨below, restAscending⟩ := List.pairwise_cons.mp ascending
    unfold insertInto
    split
    next before =>
      refine List.pairwise_cons.mpr ⟨fun other member => ?_, ascending⟩
      rcases List.mem_cons.mp member with same | inRest
      · exact same ▸ before
      · exact String.lt_trans before (below other inRest)
    next notBefore =>
      split
      next => exact ascending
      next different =>
        refine List.pairwise_cons.mpr ⟨fun other member => ?_, ih restAscending⟩
        rcases mem_insertInto.mp member with same | inRest
        · have atMost : first ≤ word := String.not_lt.mp notBefore
          exact same ▸ Std.lt_of_le_of_ne atMost (fun equal => different equal.symm)
        · exact below other inRest

def empty : WordSet := ⟨[], .nil⟩

instance : Inhabited WordSet := ⟨empty⟩

def insert (set : WordSet) (word : String) : WordSet :=
  ⟨insertInto word set.words, pairwise_insertInto set.ascending⟩

def ofList (words : List String) : WordSet := words.foldl insert empty

/-- The words in ascending order. -/
def toList (set : WordSet) : List String := set.words

def contains (set : WordSet) (word : String) : Bool := set.words.contains word

def size (set : WordSet) : Nat := set.words.length

def isEmpty (set : WordSet) : Bool := set.words.isEmpty

/-- The words that a test accepts. -/
def filter (set : WordSet) (accepts : String → Bool) : WordSet :=
  ⟨set.words.filter accepts, set.ascending.filter accepts⟩

def union (first second : WordSet) : WordSet := second.words.foldl insert first

@[simp] theorem contains_empty (word : String) : empty.contains word = false := rfl

theorem contains_insert (set : WordSet) (word other : String) :
    (set.insert word).contains other = (other == word || set.contains other) := by
  rw [Bool.eq_iff_iff]
  simp [contains, insert, mem_insertInto]

theorem contains_foldl_insert (set : WordSet) (words : List String) (word : String) :
    (words.foldl insert set).contains word = (set.contains word || words.contains word) := by
  induction words generalizing set with
  | nil => simp
  | cons first rest ih =>
    rw [List.foldl_cons, ih, contains_insert, List.contains_cons]
    cases set.contains word <;> cases word == first <;> simp

theorem contains_ofList (words : List String) (word : String) :
    (ofList words).contains word = words.contains word := by
  rw [ofList, contains_foldl_insert, contains_empty, Bool.false_or]

/-- The words in quotes and in braces. -/
def description (set : WordSet) : String :=
  "\x7b" ++ String.intercalate ", " (set.words.map Text.quoted) ++ "\x7d"

end WordSet

end QueryHighlight
