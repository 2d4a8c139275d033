import QueryHighlight.Text.Classes

/-!
Names. A name ends on a word boundary, so it never ends on a `$` unless a word character follows
that `$`, and then it goes on; of the boundaries in a run of name characters the last one is taken.
-/

namespace QueryHighlight.Scan
open Text

/-- How many characters a name takes from `rest` when it has come as far as the character
`before`: as many as lead to the last word boundary in the run, none where the run has none. -/
def nameRest? (before : Char) : List Char → Option Nat
  | [] => if isWord before then some 0 else none
  | c :: rest =>
    match if isNamePart c then nameRest? c rest else none with
    | some size => some (size + 1)
    | none => if isWord before != isWord c then some 0 else none

/-- Length of the name at the head of a text. -/
def nameSize? : List Char → Option Nat
  | [] => none
  | c :: rest => if isNameStart c then (nameRest? c rest).map (· + 1) else none

/-- Words that a name can spell in one piece: they look like a name and end on a word character. -/
def isReachable (word : List Char) : Bool :=
  word.head?.any isNameStart && word.all isNamePart && word.getLast?.any isWord

theorem nameSize?_pos {rest : List Char} {size : Nat} (found : nameSize? rest = some size) :
    0 < size := by
  cases rest with
  | nil => simp [nameSize?] at found
  | cons c rest =>
    simp only [nameSize?, Option.ite_none_right_eq_some, Option.map_eq_some_iff] at found
    obtain ⟨_, further, _, rfl⟩ := found
    omega

end QueryHighlight.Scan
