import QueryHighlight.Proofs.WordSet.Walk
import QueryHighlight.Vocabulary

/-!
Words that are in more than one set of a vocabulary. A walk over the sets, one after the other and
each in whatever order, notes a word when a later set has it too, unless it is noted already. So a
word of all three sets, which is met twice with a set behind it, is noted once; and sorted by their
words the notes are the overlaps of the vocabulary, in whatever order the sets were walked over.
-/

namespace QueryHighlight.Vocabulary

variable {vocabulary : Vocabulary}

/-- The word is in two of the three sets at least. -/
def IsShared (vocabulary : Vocabulary) (word : String) : Prop :=
  2 ≤ [vocabulary.functions, vocabulary.constants, vocabulary.keywords].countP fun set =>
    set.contains word

/-- Notes a word with its kind if a later set has it and it is not noted yet. -/
def note (vocabulary : Vocabulary) (later : List WordSet) (noted : List (String × Kind))
    (word : String) : List (String × Kind) :=
  let shadowed := later.any fun set => set.contains word
  let seen := noted.any fun entry => entry.1 == word
  if shadowed && !seen then noted ++ [(word, vocabulary.classify word)] else noted

/-- What has been noted behind walks over some sets. -/
def noteAll (vocabulary : Vocabulary) :
    List ((set : WordSet) × set.Walk) → List (String × Kind) → List (String × Kind)
  | [], noted => noted
  | ⟨_, walk⟩ :: later, noted =>
    noteAll vocabulary later (walk.words.foldl (note vocabulary (later.map Sigma.fst)) noted)

/-- What walks over the functions, the constants and the keywords note. -/
def noteWalks (vocabulary : Vocabulary) (functions : vocabulary.functions.Walk)
    (constants : vocabulary.constants.Walk) (keywords : vocabulary.keywords.Walk) :
    List (String × Kind) :=
  noteAll vocabulary [⟨_, functions⟩, ⟨_, constants⟩, ⟨_, keywords⟩] []

/-- A set has the word, and so does a later one. -/
def SharedAmong : List WordSet → String → Prop
  | [], _ => False
  | set :: later, word =>
    (set.contains word = true ∧ ∃ other ∈ later, other.contains word = true) ∨
      SharedAmong later word

theorem sharedAmong_iff {sets : List WordSet} {word : String} :
    SharedAmong sets word ↔ 2 ≤ sets.countP fun set => set.contains word := by
  induction sets with
  | nil => simp [SharedAmong]
  | cons set later ih =>
    have counted : (∃ other ∈ later, other.contains word = true) ↔
        0 < later.countP fun other => other.contains word := List.countP_pos_iff.symm
    rw [SharedAmong, ih, List.countP_cons, counted]
    by_cases member : set.contains word = true
    · rw [if_pos member, and_iff_right member]
      omega
    · rw [if_neg member, Nat.add_zero, or_iff_right (fun both => member both.1)]

/-- The notes are exactly the words of a sort, each noted once and with its kind. -/
structure Notes (vocabulary : Vocabulary) (noted : List (String × Kind)) (wanted : String → Prop) :
    Prop where
  nodup : (noted.map Prod.fst).Nodup
  mem_iff : ∀ word kind, (word, kind) ∈ noted ↔ wanted word ∧ kind = vocabulary.classify word

namespace Notes

variable {noted : List (String × Kind)} {wanted : String → Prop}

theorem mem_map_fst (notes : Notes vocabulary noted wanted) (word : String) :
    word ∈ noted.map Prod.fst ↔ wanted word := by
  rw [List.mem_map]
  constructor
  · rintro ⟨⟨_, kind⟩, member, rfl⟩
    exact ((notes.mem_iff _ kind).mp member).1
  · intro known
    exact ⟨_, (notes.mem_iff word _).mpr ⟨known, rfl⟩, rfl⟩

theorem congr {other : String → Prop} (notes : Notes vocabulary noted wanted)
    (same : ∀ word, wanted word ↔ other word) : Notes vocabulary noted other where
  nodup := notes.nodup
  mem_iff word kind := by rw [notes.mem_iff, same]

/-- One word more is wanted now if a later set has it. -/
theorem note (notes : Notes vocabulary noted wanted) (later : List WordSet) (word : String) :
    Notes vocabulary (vocabulary.note later noted word) fun other =>
      wanted other ∨ other = word ∧ ∃ set ∈ later, set.contains word = true := by
  have seen : (noted.any fun entry => entry.1 == word) = true ↔ wanted word := by
    rw [← notes.mem_map_fst, List.any_eq_true, List.mem_map]
    simp
  have shadowed : (later.any fun set => set.contains word) = true ↔
      ∃ set ∈ later, set.contains word = true := List.any_eq_true
  rw [Vocabulary.note]
  split
  next unseen =>
    obtain ⟨found, notSeen⟩ := Bool.and_eq_true_iff.mp unseen
    have fresh : ¬wanted word := by
      rw [← seen, Bool.not_eq_true]
      simpa using notSeen
    refine ⟨?_, fun other kind => ?_⟩
    · rw [List.map_append]
      apply List.nodup_append.mpr
      refine ⟨notes.nodup, List.nodup_singleton _, ?_⟩
      intro first member second alone
      rw [List.mem_singleton.mp alone]
      rintro rfl
      exact fresh ((notes.mem_map_fst _).mp member)
    · rw [List.mem_append, notes.mem_iff, List.mem_singleton, Prod.mk.injEq,
        and_iff_left (shadowed.mp found), or_and_right]
      refine or_congr_right ⟨?_, ?_⟩
      · rintro ⟨rfl, rfl⟩
        exact ⟨rfl, rfl⟩
      · rintro ⟨rfl, rfl⟩
        exact ⟨rfl, rfl⟩
  next stays =>
    apply notes.congr
    intro other
    refine ⟨.inl, ?_⟩
    rintro (known | ⟨rfl, found⟩)
    · exact known
    · by_contra fresh
      apply stays
      rw [shadowed.mpr found, Bool.eq_false_iff.mpr (mt seen.mp fresh)]
      rfl

/-- Behind a walk every word of it is wanted that a later set has. -/
theorem foldl_note (notes : Notes vocabulary noted wanted) (later : List WordSet)
    (words : List String) :
    Notes vocabulary (words.foldl (vocabulary.note later) noted) fun word =>
      wanted word ∨ word ∈ words ∧ ∃ set ∈ later, set.contains word = true := by
  induction words generalizing noted wanted with
  | nil => exact notes.congr fun word => by simp
  | cons first words ih =>
    rw [List.foldl_cons]
    apply (ih (notes.note later first)).congr
    intro word
    rw [List.mem_cons, or_and_right, or_assoc]
    refine or_congr_right (or_congr_left ?_)
    constructor <;> rintro ⟨rfl, found⟩ <;> exact ⟨rfl, found⟩

/-- Behind walks over some sets every word is wanted that is in two of them. -/
theorem noteAll (notes : Notes vocabulary noted wanted) (walks : List ((set : WordSet) × set.Walk)) :
    Notes vocabulary (vocabulary.noteAll walks noted) fun word =>
      wanted word ∨ SharedAmong (walks.map Sigma.fst) word := by
  induction walks generalizing noted wanted with
  | nil => exact notes.congr fun word => by simp [SharedAmong]
  | cons first walks ih =>
    obtain ⟨set, walk⟩ := first
    apply (ih (notes.foldl_note (walks.map Sigma.fst) walk.words)).congr
    intro word
    rw [walk.mem_iff, List.map_cons, SharedAmong, or_assoc]

theorem map_fst_overlaps (vocabulary : Vocabulary) :
    vocabulary.overlaps.map Prod.fst = vocabulary.shadowing.words := by
  rw [overlaps, List.map_map]
  exact List.map_id _

theorem contains_shadowing (vocabulary : Vocabulary) (word : String) :
    vocabulary.shadowing.contains word = true ↔ vocabulary.IsShared word := by
  rw [shadowing, WordSet.contains_union, WordSet.contains_filter, WordSet.contains_filter, IsShared]
  simp only [List.countP_cons, List.countP_nil]
  cases vocabulary.functions.contains word <;> cases vocabulary.constants.contains word <;>
    cases vocabulary.keywords.contains word <;> decide

theorem overlaps (vocabulary : Vocabulary) :
    Notes vocabulary vocabulary.overlaps vocabulary.IsShared where
  nodup := map_fst_overlaps vocabulary ▸ vocabulary.shadowing.nodup
  mem_iff word kind := by
    rw [Vocabulary.overlaps, List.mem_map, ← contains_shadowing, WordSet.contains_iff_mem]
    constructor
    · rintro ⟨other, member, same⟩
      obtain ⟨rfl, rfl⟩ := Prod.mk.inj same
      exact ⟨member, rfl⟩
    · rintro ⟨member, rfl⟩
      exact ⟨word, member, rfl⟩

theorem noteWalks (functions : vocabulary.functions.Walk) (constants : vocabulary.constants.Walk)
    (keywords : vocabulary.keywords.Walk) :
    Notes vocabulary (vocabulary.noteWalks functions constants keywords) vocabulary.IsShared := by
  have nothing : Notes vocabulary [] fun _ => False := ⟨List.nodup_nil, by simp⟩
  apply (nothing.noteAll _).congr
  intro word
  rw [false_or, sharedAmong_iff]
  exact .rfl

/-- Notes of the same words are the same notes, but for their order. -/
theorem perm {others : List (String × Kind)} (notes : Notes vocabulary noted wanted)
    (again : Notes vocabulary others wanted) : noted.Perm others := by
  have first := notes.nodup.of_map
  have second := again.nodup.of_map
  apply (List.perm_ext_iff_of_nodup first second).mpr
  rintro ⟨word, kind⟩
  rw [notes.mem_iff, again.mem_iff]

end Notes

theorem ascending_overlaps (vocabulary : Vocabulary) :
    vocabulary.overlaps.Pairwise fun first second => first.1 < second.1 := by
  rw [overlaps, List.pairwise_map]
  exact vocabulary.shadowing.ascending

theorem isSorting_iff {functions : vocabulary.functions.Walk}
    {constants : vocabulary.constants.Walk} {keywords : vocabulary.keywords.Walk}
    {sorted : List (String × Kind)} :
    IsSorting Prod.fst (vocabulary.noteWalks functions constants keywords) sorted ↔
      sorted = vocabulary.overlaps := by
  have notes := Notes.overlaps vocabulary
  have perm := (Notes.noteWalks functions constants keywords).perm notes
  have ordered : vocabulary.overlaps.Pairwise fun first second =>
      Text.utf8 first.1 ≤ Text.utf8 second.1 :=
    (ascending_overlaps vocabulary).imp fun less => Text.utf8_le_iff.mpr (Std.le_of_lt less)
  constructor
  · intro sorting
    refine List.Perm.eq_of_pairwise ?_ sorting.ordered ordered (sorting.perm.trans perm)
    rintro ⟨word, kind⟩ ⟨other, otherKind⟩ member also before behind
    obtain rfl : word = other :=
      String.le_antisymm (Text.utf8_le_iff.mp before) (Text.utf8_le_iff.mp behind)
    have noted := (notes.mem_iff word kind).mp ((sorting.perm.trans perm).mem_iff.mp member)
    rw [noted.2, ((notes.mem_iff word otherKind).mp also).2]
  · rintro rfl
    exact ⟨perm.symm, ordered⟩

/-- Of two sets that have a word, one is not the keywords. -/
theorem classify_of_isShared {word : String} (shared : vocabulary.IsShared word) :
    vocabulary.classify word =
      if vocabulary.functions.contains word then .function else .constant := by
  unfold classify
  split
  next => rfl
  next notFunction =>
    apply if_pos
    by_contra notConstant
    have atMost : [vocabulary.functions, vocabulary.constants, vocabulary.keywords].countP
        (fun set => set.contains word) ≤ 1 := by
      rw [List.countP_cons, List.countP_cons, if_neg notFunction, if_neg notConstant]
      exact List.countP_le_length
    exact absurd shared (Nat.not_le.mpr (Nat.lt_succ_of_le atMost))

/-- The overlaps of a vocabulary are the words that two of its sets have, in the order of their
bytes and without repeats, each with the kind that it resolves to. They are what sorting yields
behind walks over the sets, whatever the orders of the walks. -/
theorem overlaps_exactly_shared (vocabulary : Vocabulary) :
    (vocabulary.overlaps.Pairwise fun first second =>
      Text.utf8 first.1 < Text.utf8 second.1) ∧
    (∀ word kind, (word, kind) ∈ vocabulary.overlaps ↔
      vocabulary.IsShared word ∧ kind = vocabulary.classify word) ∧
    (∀ entry ∈ vocabulary.overlaps,
      entry.2 = if vocabulary.functions.contains entry.1 then .function else .constant) ∧
    ∀ (functions : vocabulary.functions.Walk) (constants : vocabulary.constants.Walk)
      (keywords : vocabulary.keywords.Walk) (sorted : List (String × Kind)),
      IsSorting Prod.fst (vocabulary.noteWalks functions constants keywords) sorted ↔
        sorted = vocabulary.overlaps := by
  have notes := Notes.overlaps vocabulary
  refine ⟨?_, notes.mem_iff, ?_, fun _ _ _ _ => isSorting_iff⟩
  · exact (ascending_overlaps vocabulary).imp Text.utf8_lt_iff.mpr
  · rintro ⟨word, kind⟩ member
    obtain ⟨shared, kind_eq⟩ := (notes.mem_iff word kind).mp member
    rw [kind_eq]
    exact classify_of_isShared shared

/-- A word of each two of the sets and one of all three; the walks meet them from the greatest to
the least, and the keywords are walked over in vain. -/
theorem overlaps_exactly_shared_backwards :
    let vocabulary : Vocabulary :=
      ⟨.ofList ["if", "all", "é", "f"], .ofList ["all", "if", "or"], .ofList ["é", "or", "all", "k"]⟩
    let noted := vocabulary.noteWalks (.backwards _) (.backwards _) (.backwards _)
    let sorted := [("all", Kind.function), ("if", .function), ("or", .constant), ("é", .function)]
    noted ≠ sorted ∧ IsSorting Prod.fst noted sorted ∧ sorted = vocabulary.overlaps ∧
      ("or", .constant) ∈ vocabulary.overlaps ∧ vocabulary.functions.contains "or" = false := by
  intro vocabulary noted sorted
  obtain ⟨-, -, kinds, sorting_iff⟩ := overlaps_exactly_shared vocabulary
  have sorting : IsSorting Prod.fst noted sorted := {
    perm := by decide +kernel
    ordered := by decide +kernel }
  have same : sorted = vocabulary.overlaps := (sorting_iff _ _ _ sorted).mp sorting
  have member : ("or", Kind.constant) ∈ vocabulary.overlaps := by
    rw [← same]
    decide
  refine ⟨by decide +kernel, sorting, same, member, ?_⟩
  have kind := kinds _ member
  by_contra isFunction
  rw [Bool.not_eq_false] at isFunction
  rw [if_pos isFunction] at kind
  cases kind

end QueryHighlight.Vocabulary
