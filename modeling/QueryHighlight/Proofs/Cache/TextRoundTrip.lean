import QueryHighlight.Proofs.Cache.History
import QueryHighlight.Proofs.Document.Lines
import QueryHighlight.Proofs.Text.Concatenation

/-!
A cache and its text. A cache that is right about its lines is determined by them, so setting a text
leaves nothing of what was there before, and a cache is the same again when it is opened with its own
text. The latter needs that the lines of the cache are lines: that none has a line end on it, and
that there is one at all, since the empty text has one.
-/

namespace QueryHighlight
open Scan Text CachedLine

/-- What the edit puts in are lines, each of them without a line end. -/
def Edit.InsertsLines : Edit → Prop
  | .setText _ => True
  | .replaceLines _ _ inserted => ∀ line ∈ inserted, IsOneLine line.toList

theorem linesOfText_eq (text : String) :
    linesOfText text = (Segments.ofText text.toList).lines.map String.ofList :=
  map_text_splitLines text

theorem isOneLine_of_mem_linesOfText {text line : String} (member : line ∈ linesOfText text) :
    IsOneLine line.toList := by
  rw [linesOfText_eq] at member
  obtain ⟨chars, present, rfl⟩ := List.mem_map.mp member
  rw [String.toList_ofList]
  exact isOneLine_of_mem_lines text.toList chars present

/-- No edit that inserts lines makes anything but lines. -/
theorem isOneLine_of_mem_editLines {lines : List String} {edit : Edit}
    (oneLine : ∀ line ∈ lines, IsOneLine line.toList) (inserts : edit.InsertsLines) :
    ∀ line ∈ editLines lines edit, IsOneLine line.toList := by
  intro line member
  cases edit with
  | setText text => exact isOneLine_of_mem_linesOfText member
  | replaceLines start removed inserted =>
    simp only [editLines, List.mem_append] at member
    rcases member with (before | new) | behind
    · exact oneLine line (List.mem_of_mem_take before)
    · exact inserts line new
    · exact oneLine line (List.mem_of_mem_drop behind)

theorem isOneLine_of_mem_editedLines (opening : Option String) {edits : List Edit}
    (inserts : ∀ edit ∈ edits, edit.InsertsLines) :
    ∀ line ∈ editedLines opening edits, IsOneLine line.toList := by
  have opened : ∀ line ∈ openedLines opening, IsOneLine line.toList := by
    intro line member
    cases opening with
    | none => cases member
    | some text => exact isOneLine_of_mem_linesOfText member
  rw [editedLines]
  generalize openedLines opening = lines at opened
  induction edits generalizing lines with
  | nil => exact opened
  | cons edit later ih =>
    obtain ⟨here, there⟩ := List.forall_mem_cons.mp inserts
    exact ih there _ (isOneLine_of_mem_editLines opened here)

/-- Lines without line ends are found again in their text, unless there are none. -/
theorem linesOfText_intercalate {lines : List String} (nonempty : lines ≠ [])
    (oneLine : ∀ line ∈ lines, IsOneLine line.toList) :
    linesOfText (String.intercalate "\n" lines) = lines := by
  have found : (Segments.ofText (['\n'].intercalate (lines.map String.toList))).lines =
      lines.map String.toList := by
    apply lines_intercalate
    · simpa using nonempty
    · intro chars member
      obtain ⟨line, present, rfl⟩ := List.mem_map.mp member
      exact oneLine line present
  rw [linesOfText_eq, String.toList_intercalate]
  calc
    (Segments.ofText (['\n'].intercalate (lines.map String.toList))).lines.map String.ofList =
        (lines.map String.toList).map String.ofList := by rw [found]
    _ = lines := by simp

namespace HighlightCache

variable {τ : Type} [LineTokenizer τ]

/-- What a consistent cache knows follows from its tokenizer and the texts of its lines. -/
theorem Consistent.eq_of_texts {first second : HighlightCache τ} (consistent : first.Consistent)
    (secondConsistent : second.Consistent) (tokenizer_eq : first.tokenizer = second.tokenizer)
    (texts_eq : texts first.lines = texts second.lines) : first = second := by
  have lines_eq : first.lines = second.lines := by
    rw [Threaded.eq_freshLines consistent, Threaded.eq_freshLines secondConsistent, texts_eq,
      tokenizer_eq]
  obtain ⟨firstTokenizer, firstLines⟩ := first
  obtain ⟨secondTokenizer, secondLines⟩ := second
  simp only at tokenizer_eq lines_eq
  rw [tokenizer_eq, lines_eq]

theorem setText_eq_ofText {cache : HighlightCache τ} (consistent : cache.Consistent)
    (text : String) : cache.setText text = ofText cache.tokenizer text := by
  apply Consistent.eq_of_texts
  · exact consistent_edit consistent (.setText text)
  · exact consistent_opened cache.tokenizer (some text)
  · rfl
  · rw [texts_setText]
    exact (texts_setText _ text).symm

/-- The text of a cache that was opened with a text has a line feed for each of its line ends. -/
theorem text_ofText (tokenizer : τ) (text : String) :
    (ofText tokenizer text).text = String.ofList (withLineFeeds text.toList) := by
  have texts_eq : texts (ofText tokenizer text).lines = linesOfText text := texts_setText _ text
  have chars : (linesOfText text).map String.toList = (Segments.ofText text.toList).lines := by
    rw [linesOfText_eq]
    simp
  apply String.toList_injective
  calc
    (ofText tokenizer text).text.toList =
        ("\n".intercalate (texts (ofText tokenizer text).lines)).toList := rfl
    _ = ['\n'].intercalate (Segments.ofText text.toList).lines := by
      rw [texts_eq, String.toList_intercalate, chars]
      rfl
    _ = (String.ofList (withLineFeeds text.toList)).toList := by
      rw [intercalate_lines_ofText, String.toList_ofList]

theorem ofText_text {cache : HighlightCache τ} (consistent : cache.Consistent)
    (nonempty : cache.lines ≠ []) (oneLine : ∀ line ∈ texts cache.lines, IsOneLine line.toList) :
    ofText cache.tokenizer cache.text = cache := by
  apply Consistent.eq_of_texts
  · exact consistent_opened cache.tokenizer (some cache.text)
  · exact consistent
  · rfl
  · calc
      texts (ofText cache.tokenizer cache.text).lines = linesOfText cache.text :=
        texts_setText _ cache.text
      _ = texts cache.lines := by
        apply linesOfText_intercalate _ oneLine
        simpa [texts] using nonempty

/-- Opening a cache with a text shows it with line feeds, setting a text is opening a cache with it
whatever was edited before, and a cache with any line at all that was only ever given lines is
opened again by its own text. -/
theorem ofText_text_history (tokenizer : τ) (opening : Option String) (edits : List Edit) :
    let cache := (opened tokenizer opening).editAll edits
    (∀ text, (ofText tokenizer text).text = String.ofList (withLineFeeds text.toList)) ∧
      (∀ text, cache.setText text = ofText tokenizer text) ∧
      ((∀ edit ∈ edits, edit.InsertsLines) → cache.lines ≠ [] →
        ofText tokenizer cache.text = cache) := by
  intro cache
  have consistent : cache.Consistent := consistent_history tokenizer opening edits
  have tokenizer_eq : cache.tokenizer = tokenizer := tokenizer_history tokenizer opening edits
  refine ⟨text_ofText tokenizer, ?_, ?_⟩
  · intro text
    rw [setText_eq_ofText consistent, tokenizer_eq]
  · intro inserts nonempty
    have texts_eq : texts cache.lines = editedLines opening edits := by
      rw [texts_editAll, texts_opened]
      rfl
    have oneLine : ∀ line ∈ texts cache.lines, IsOneLine line.toList := by
      rw [texts_eq]
      exact isOneLine_of_mem_editedLines opening inserts
    have again := ofText_text consistent nonempty oneLine
    rwa [tokenizer_eq] at again

/-- Two of the lines leave a literal open, and there is an empty line behind one of them. -/
theorem ofText_text_history_open_literals :
    let tokenizer : QueryTokenizer := ⟨false, ⟨.empty, .empty, .empty⟩⟩
    let edits : List Edit := [.setText "'a\\\r\r\nb", .replaceLines 1 1 ["", "'x\\"]]
    let cache := (opened tokenizer none).editAll edits
    (∀ edit ∈ edits, edit.InsertsLines) ∧ cache.lines ≠ [] ∧
      cache.text = "'a\\\n\n'x\\\nb" ∧ ofText tokenizer cache.text = cache := by
  intro tokenizer edits cache
  have inserts : ∀ edit ∈ edits, edit.InsertsLines := by
    simp [edits, Edit.InsertsLines, IsOneLine]
  have nonempty : cache.lines ≠ [] := by decide +kernel
  have again := (ofText_text_history tokenizer none edits).2.2 inserts nonempty
  exact ⟨inserts, nonempty, by decide +kernel, again⟩

end HighlightCache

end QueryHighlight
