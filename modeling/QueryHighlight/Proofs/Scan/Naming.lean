import QueryHighlight.Scan.Name

/-!
The names that the name rule takes. A name ends on a word character: the boundary that it ends on
cannot be one before a word character, because from there the name would go on. So what is taken
is a reachable word, a reachable word is taken whole, and no name starts where another one ends.
-/

namespace QueryHighlight.Scan
open Text

variable {before c : Char} {rest word : List Char} {size : Nat}

theorem isNamePart_of_isWord (member : isWord c = true) : isNamePart c = true := by
  rw [isNamePart, member, Bool.true_or]

/-- Behind a word character a name never has to give up: the run of name characters that follows
has a boundary in it, at the latest where its word characters end. -/
theorem exists_nameRest? (member : isWord before = true) (rest : List Char) :
    ∃ size, nameRest? before rest = some size := by
  fun_induction nameRest? before rest with
  | case1 => exact ⟨0, rfl⟩
  | case2 before notWord => exact absurd member notWord
  | case3 before c rest size deeper ih => exact ⟨size + 1, rfl⟩
  | case4 => exact ⟨0, rfl⟩
  | case5 before c rest stuck noBoundary ih =>
    have alsoWord : isWord c = true := by
      rw [member, bne_iff_ne, ne_eq, Decidable.not_not] at noBoundary
      exact noBoundary.symm
    obtain ⟨size, deeper⟩ := ih alsoWord
    rw [if_pos (isNamePart_of_isWord alsoWord), deeper] at stuck
    cases stuck

/-- A name that stops before a character could not have gone on over it. -/
theorem nameRest?_stuck (stuck : (if isNamePart c then nameRest? c rest else none) = none) :
    isWord c = false := by
  refine Bool.eq_false_iff.mpr fun member => ?_
  obtain ⟨size, deeper⟩ := exists_nameRest? member rest
  rw [if_pos (isNamePart_of_isWord member), deeper] at stuck
  cases stuck

theorem any_getLast?_nameRest? (found : nameRest? before rest = some size) :
    (before :: rest.take size).getLast?.any isWord = true := by
  fun_induction nameRest? before rest generalizing size with
  | case1 before member =>
    cases found
    exact member
  | case2 => cases found
  | case3 before c rest further deeper ih =>
    cases found
    rw [List.take_succ_cons, List.getLast?_cons_cons]
    exact ih (Option.ite_none_right_eq_some.mp deeper).2
  | case4 before c rest stuck boundary ih =>
    cases found
    rw [nameRest?_stuck stuck, bne_iff_ne, ne_eq, Bool.not_eq_false] at boundary
    exact boundary
  | case5 => cases found

theorem all_take_nameRest? (found : nameRest? before rest = some size) :
    (rest.take size).all isNamePart = true := by
  fun_induction nameRest? before rest generalizing size with
  | case1 => rw [List.take_nil]; rfl
  | case2 => cases found
  | case3 before c rest further deeper ih =>
    cases found
    obtain ⟨member, known⟩ := Option.ite_none_right_eq_some.mp deeper
    rw [List.take_succ_cons, List.all_cons, member, ih known]
    rfl
  | case4 => cases found; rfl
  | case5 => cases found

/-- Where a name has backed off, no name starts. -/
theorem nameSize?_drop_nameRest? (found : nameRest? before rest = some size) :
    nameSize? (rest.drop size) = none := by
  fun_induction nameRest? before rest generalizing size with
  | case1 => rw [List.drop_nil]; rfl
  | case2 => cases found
  | case3 before c rest further deeper ih =>
    cases found
    exact ih (Option.ite_none_right_eq_some.mp deeper).2
  | case4 before c rest stuck boundary ih =>
    cases found
    rw [List.drop_zero, nameSize?]
    split
    next starts =>
      rw [if_pos (isNamePart_of_isNameStart starts)] at stuck
      rw [stuck]
      rfl
    next => rfl
  | case5 => cases found

/-- All name characters are taken if the last of them is a word character. -/
theorem nameRest?_eq_length (parts : rest.all isNamePart = true)
    (ends : (before :: rest).getLast?.any isWord = true) :
    nameRest? before rest = some rest.length := by
  induction rest generalizing before with
  | nil => exact if_pos ends
  | cons c rest ih =>
    obtain ⟨member, others⟩ := Bool.and_eq_true_iff.mp parts
    rw [List.getLast?_cons_cons] at ends
    rw [nameRest?, if_pos member, ih others ends]
    rfl

theorem exists_nameRest?_of_nameSize? (found : nameSize? rest = some size) :
    ∃ c after further, rest = c :: after ∧ isNameStart c = true ∧
      nameRest? c after = some further ∧ size = further + 1 := by
  cases rest with
  | nil => cases found
  | cons c after =>
    obtain ⟨starts, known⟩ := Option.ite_none_right_eq_some.mp found
    obtain ⟨further, deeper, same⟩ := Option.map_eq_some_iff.mp known
    exact ⟨c, after, further, rfl, starts, deeper, same.symm⟩

theorem isReachable_of_nameSize? (found : nameSize? rest = some size) :
    isReachable (rest.take size) = true := by
  obtain ⟨c, after, further, rfl, starts, deeper, rfl⟩ := exists_nameRest?_of_nameSize? found
  have ends := any_getLast?_nameRest? deeper
  have parts := all_take_nameRest? deeper
  rw [isReachable, List.take_succ_cons, ends, List.all_cons, parts,
    isNamePart_of_isNameStart starts, List.head?_cons, Option.any_some, starts]
  rfl

/-- A reachable word is a name from its first character to its last. -/
theorem nameSize?_of_isReachable (reachable : isReachable word = true) :
    nameSize? word = some word.length := by
  rw [isReachable, Bool.and_eq_true, Bool.and_eq_true] at reachable
  obtain ⟨⟨starts, parts⟩, ends⟩ := reachable
  cases word with
  | nil => cases starts
  | cons c rest =>
    have first : isNameStart c = true := starts
    have others := (Bool.and_eq_true_iff.mp parts).2
    rw [nameSize?, if_pos first, nameRest?_eq_length others ends]
    rfl

theorem nameSize?_behind_name (found : nameSize? rest = some size) :
    nameSize? (rest.drop size) = none := by
  obtain ⟨c, after, further, rfl, -, deeper, rfl⟩ := exists_nameRest?_of_nameSize? found
  rw [List.drop_succ_cons]
  exact nameSize?_drop_nameRest? deeper

end QueryHighlight.Scan
