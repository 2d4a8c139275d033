import QueryHighlight.Proofs.Text.Lines

/-!
Texts whose lines all end in a line feed. Joining the lines of a text by line feeds gives the text
with every line end replaced by one, and nothing else changed.
-/

namespace QueryHighlight.Text

/-- The text with every line end turned into a line feed. -/
def withLineFeeds : List Char → List Char
  | [] => []
  | '\r' :: '\n' :: rest => '\n' :: withLineFeeds rest
  | '\r' :: rest => '\n' :: withLineFeeds rest
  | c :: rest => c :: withLineFeeds rest

/-- The text with a line feed behind it, unless it is empty or has one there already. -/
def closedByLineFeed (text : List Char) : List Char :=
  if text = [] ∨ text.getLast? = some '\n' then text else text ++ ['\n']

theorem intercalate_lines_behind (lineEnd : LineEnd) (segments : Segments) :
    ['\n'].intercalate (segments.behind lineEnd).lines =
      '\n' :: ['\n'].intercalate segments.lines := rfl

theorem intercalate_lines_extend (c : Char) (segments : Segments) :
    ['\n'].intercalate (segments.extend c).lines = c :: ['\n'].intercalate segments.lines := by
  obtain ⟨first, others⟩ := segments
  cases others with
  | nil => rfl
  | cons other others => rfl

theorem intercalate_lines_ofText (text : List Char) :
    ['\n'].intercalate (Segments.ofText text).lines = withLineFeeds text := by
  -- Both functions look for the two characters of a long line end first.
  fun_induction Segments.ofText text with
  | case1 => rfl
  | case2 rest ih => rw [intercalate_lines_behind, ih, withLineFeeds]
  | case3 rest single ih =>
    rw [intercalate_lines_behind, ih, withLineFeeds]
    exact single
  | case4 rest ih =>
    rw [intercalate_lines_behind, ih, withLineFeeds]
    · intro _ impossible
      cases impossible
    · intro impossible
      cases impossible
  | case5 c rest noBoth noReturn noFeed ih =>
    rw [intercalate_lines_extend, ih, withLineFeeds]
    · exact noBoth
    · exact noReturn

/-- A line takes a line feed behind it exactly if there is something on it. -/
theorem closedByLineFeed_of_isOneLine {line : List Char} (oneLine : IsOneLine line) :
    closedByLineFeed line = line ++ if line = [] then [] else ['\n'] := by
  by_cases empty : line = []
  · rw [closedByLineFeed, if_pos (.inl empty), if_pos empty, List.append_nil]
  · have noFeed : line.getLast? ≠ some '\n' := fun last =>
      (oneLine _ (List.mem_of_getLast? last)).1 rfl
    rw [closedByLineFeed, if_neg (not_or.mpr ⟨empty, noFeed⟩), if_neg empty]

/-- What stands before the last line has no part in whether it takes a line feed. -/
theorem closedByLineFeed_behind (before text : List Char) :
    closedByLineFeed (before ++ '\n' :: text) = before ++ '\n' :: closedByLineFeed text := by
  have nonempty : before ++ '\n' :: text ≠ [] := by simp
  have last : (before ++ '\n' :: text).getLast? = some '\n' ↔
      text = [] ∨ text.getLast? = some '\n' := by
    cases text with
    | nil => simp
    | cons c rest => simp [List.getLast?_cons]
  by_cases closed : text = [] ∨ text.getLast? = some '\n'
  · rw [closedByLineFeed, closedByLineFeed, if_pos (.inr (last.mpr closed)), if_pos closed]
  · rw [closedByLineFeed, closedByLineFeed, if_neg (not_or.mpr ⟨nonempty, mt last.mp closed⟩),
      if_neg closed, List.append_assoc, List.cons_append]

end QueryHighlight.Text
