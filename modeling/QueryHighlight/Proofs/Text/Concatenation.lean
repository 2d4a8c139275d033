import QueryHighlight.Proofs.Text.LineFeeds

/-!
Texts put together with a line feed between them. The cut falls between two lines, so the lines of
the whole are the lines of both texts; only a carriage return in front of the line feed would make
one line end of the two. Joining lines by line feeds is undone by cutting the text into lines.
-/

namespace QueryHighlight.Text
namespace Segments

/-- The segments of two texts with a line feed between them. -/
def followedBy (first second : Segments) : Segments :=
  ⟨first.first, first.others ++ (.lineFeed, second.first) :: second.others⟩

theorem lines_followedBy (first second : Segments) :
    (first.followedBy second).lines = first.lines ++ second.lines := by
  simp [followedBy, lines]

theorem ofText_lineFeed (rest : List Char) :
    ofText ('\n' :: rest) = (ofText rest).behind .lineFeed := by
  rw [ofText]

theorem ofText_carriageReturn {c : Char} (noFeed : c ≠ '\n') (rest : List Char) :
    ofText ('\r' :: c :: rest) = (ofText (c :: rest)).behind .carriageReturn := by
  rw [ofText]
  simp [noFeed]

theorem ofText_cons {c : Char} (noFeed : c ≠ '\n') (noReturn : c ≠ '\r') (rest : List Char) :
    ofText (c :: rest) = (ofText rest).extend c := by
  rw [ofText] <;> simp [noFeed, noReturn]

/-- A line feed ends a line by itself wherever no carriage return stands in front of it. -/
theorem ofText_append_lineFeed {first : List Char} (noReturn : first.getLast? ≠ some '\r')
    (second : List Char) :
    ofText (first ++ '\n' :: second) = (ofText first).followedBy (ofText second) := by
  -- What does not end in a carriage return goes on not doing so behind its first characters.
  have behind {c : Char} {rest : List Char} (notLast : (c :: rest).getLast? ≠ some '\r') :
      rest.getLast? ≠ some '\r' := by
    intro last
    apply notLast
    rw [List.getLast?_cons, last]
    rfl
  fun_induction ofText first with
  | case1 => exact ofText_lineFeed second
  | case2 rest ih =>
    rw [List.cons_append, List.cons_append, ofText, ih (behind (behind noReturn))]
    rfl
  | case3 rest single ih =>
    obtain ⟨c, others, rfl⟩ : ∃ c others, rest = c :: others := by
      apply List.exists_cons_of_ne_nil
      rintro rfl
      exact noReturn rfl
    have noFeed : c ≠ '\n' := by
      rintro rfl
      exact single others rfl
    rw [List.cons_append, List.cons_append, ofText_carriageReturn noFeed, ← List.cons_append,
      ih (behind noReturn)]
    rfl
  | case4 rest ih =>
    rw [List.cons_append, ofText_lineFeed, ih (behind noReturn)]
    rfl
  | case5 c rest _ isReturn isFeed ih =>
    rw [List.cons_append, ofText_cons isFeed isReturn, ih (behind noReturn)]
    rfl

theorem ofText_of_isOneLine {line : List Char} (oneLine : IsOneLine line) :
    ofText line = ⟨line, []⟩ := by
  induction line with
  | nil => rfl
  | cons c rest ih =>
    obtain ⟨⟨noFeed, noReturn⟩, later⟩ := List.forall_mem_cons.mp oneLine
    rw [ofText_cons noFeed noReturn, ih later]
    rfl

end Segments

/-- Lines are found again in the text that line feeds join them to. -/
theorem lines_intercalate {lines : List (List Char)} (nonempty : lines ≠ [])
    (oneLine : ∀ line ∈ lines, IsOneLine line) :
    (Segments.ofText (['\n'].intercalate lines)).lines = lines := by
  induction lines with
  | nil => exact absurd rfl nonempty
  | cons line later ih =>
    obtain ⟨here, there⟩ := List.forall_mem_cons.mp oneLine
    cases later with
    | nil =>
      rw [List.intercalate_singleton, Segments.ofText_of_isOneLine here]
      rfl
    | cons second others =>
      have noReturn : line.getLast? ≠ some '\r' := by
        intro last
        exact (here '\r' (List.mem_of_getLast? last)).2 rfl
      have behind := ih (by simp) there
      rw [List.intercalate_cons_cons, List.append_assoc, List.singleton_append,
        Segments.ofText_append_lineFeed noReturn, Segments.lines_followedBy, behind,
        Segments.ofText_of_isOneLine here]
      rfl

end QueryHighlight.Text
