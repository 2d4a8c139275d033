import QueryHighlight.Proofs.Cache.Threaded

/-!
Edit histories. Whatever edits an editor makes, in whatever order and with whatever line numbers,
the cache holds the lines of a plain list of lines that was edited in the same way, and each line
is highlighted as if the whole document had just been tokenized from its start.
-/

namespace QueryHighlight
open Scan CachedLine

variable {τ : Type} [LineTokenizer τ]

/-- One change to a document. -/
inductive Edit where
  | setText (text : String)
  | replaceLines (start removed : Nat) (inserted : List String)

def HighlightCache.edit (cache : HighlightCache τ) : Edit → HighlightCache τ
  | .setText text => cache.setText text
  | .replaceLines start removed inserted => (cache.replaceLines start removed inserted).1

/-- How a cache comes into being: without lines, or with a text. -/
def HighlightCache.opened (tokenizer : τ) : Option String → HighlightCache τ
  | none => { tokenizer := tokenizer }
  | some text => .ofText tokenizer text

def HighlightCache.editAll (cache : HighlightCache τ) (edits : List Edit) : HighlightCache τ :=
  edits.foldl HighlightCache.edit cache

def linesOfText (text : String) : List String := (Text.splitLines text).map Text.Line.text

/-- An edit on a plain list of lines. The place and the number of removed lines are clamped. -/
def editLines (lines : List String) : Edit → List String
  | .setText text => linesOfText text
  | .replaceLines start removed inserted =>
    let first := min start lines.length
    let count := min removed (lines.length - first)
    lines.take first ++ inserted ++ lines.drop (first + count)

def openedLines (opening : Option String) : List String := (opening.map linesOfText).getD []

def editedLines (opening : Option String) (edits : List Edit) : List String :=
  edits.foldl editLines (openedLines opening)

namespace HighlightCache

/-- The cache is right about the lines that it holds. -/
def Consistent (cache : HighlightCache τ) : Prop := Threaded cache.tokenizer .start cache.lines

/-- The line at which an edit starts: the given one, or the end of the document. -/
def editStart (cache : HighlightCache τ) (start : Nat) : Nat := min start cache.lines.length

/-- How many lines an edit removes: the given number, or as many as there are. -/
def removedCount (cache : HighlightCache τ) (start removed : Nat) : Nat :=
  min removed (cache.lines.length - cache.editStart start)

/-- The lines before an edit and the inserted ones, tokenized. -/
def linesUpTo (cache : HighlightCache τ) (start : Nat) (inserted : List String) :
    List CachedLine :=
  let before := cache.lines.take (min start cache.lines.length)
  before ++ freshLines cache.tokenizer (exitState .start before) inserted

/-- The lines that an edit leaves behind the removed ones. -/
def linesBehind (cache : HighlightCache τ) (start removed : Nat) : List CachedLine :=
  cache.lines.drop (min start cache.lines.length + removed)

/-- The lines behind an edit in two parts: tokenized again, and kept. -/
def settledBehind (cache : HighlightCache τ) (start removed : Nat) (inserted : List String) :
    List CachedLine × List CachedLine :=
  settle cache.tokenizer (exitState .start (cache.linesUpTo start inserted))
    (cache.linesBehind start removed)

theorem lines_replaceLines (cache : HighlightCache τ) (start removed : Nat)
    (inserted : List String) :
    (cache.replaceLines start removed inserted).1.lines =
      cache.linesUpTo start inserted ++
        ((cache.settledBehind start removed inserted).1 ++
          (cache.settledBehind start removed inserted).2) := by
  rw [← List.append_assoc]
  rfl

theorem tokenizer_replaceLines (cache : HighlightCache τ) (start removed : Nat)
    (inserted : List String) :
    (cache.replaceLines start removed inserted).1.tokenizer = cache.tokenizer := rfl

theorem threaded_linesUpTo {cache : HighlightCache τ} (consistent : cache.Consistent)
    (start : Nat) (inserted : List String) :
    Threaded cache.tokenizer .start (cache.linesUpTo start inserted) := by
  rw [linesUpTo, threaded_append]
  exact ⟨Threaded.take consistent _, threaded_freshLines _ inserted⟩

theorem consistent_replaceLines {cache : HighlightCache τ} (consistent : cache.Consistent)
    (start removed : Nat) (inserted : List String) :
    (cache.replaceLines start removed inserted).1.Consistent := by
  rw [Consistent, lines_replaceLines, tokenizer_replaceLines, threaded_append]
  constructor
  · exact threaded_linesUpTo consistent start inserted
  · exact threaded_settle _ (Threaded.drop consistent _)

omit [LineTokenizer τ] in
/-- Removing more lines than there are removes all of them. -/
theorem linesBehind_eq_drop (cache : HighlightCache τ) (start removed : Nat) :
    cache.linesBehind start removed =
      cache.lines.drop (cache.editStart start + cache.removedCount start removed) := by
  rw [linesBehind, removedCount, editStart]
  rcases Nat.le_total removed (cache.lines.length - min start cache.lines.length) with few | many
  · rw [Nat.min_eq_left few]
  · rw [Nat.min_eq_right many, List.drop_eq_nil_of_le (by omega), List.drop_eq_nil_of_le (by omega)]

theorem texts_replaceLines (cache : HighlightCache τ) (start removed : Nat)
    (inserted : List String) :
    texts (cache.replaceLines start removed inserted).1.lines =
      editLines (texts cache.lines) (.replaceLines start removed inserted) := by
  have length_eq : (texts cache.lines).length = cache.lines.length := List.length_map _
  have before : texts (cache.linesUpTo start inserted) =
      (texts cache.lines).take (min start cache.lines.length) ++ inserted := by
    rw [linesUpTo, texts_append, texts_freshLines, texts, List.map_take]
    rfl
  have behind : texts (cache.linesBehind start removed) =
      (texts cache.lines).drop (cache.editStart start + cache.removedCount start removed) := by
    rw [linesBehind_eq_drop, texts, List.map_drop]
    rfl
  rw [lines_replaceLines, texts_append, settledBehind, texts_settle, before, behind, editLines,
    length_eq]
  rfl

theorem consistent_edit {cache : HighlightCache τ} (consistent : cache.Consistent) (edit : Edit) :
    (cache.edit edit).Consistent := by
  cases edit with
  | setText text => exact consistent_replaceLines consistent _ _ _
  | replaceLines start removed inserted => exact consistent_replaceLines consistent _ _ _

theorem texts_setText (cache : HighlightCache τ) (text : String) :
    texts (cache.setText text).lines = linesOfText text := by
  rw [setText, texts_replaceLines, editLines]
  have length_eq : (texts cache.lines).length = cache.lines.length := List.length_map _
  rw [Nat.zero_min, List.take_zero, List.nil_append, length_eq, Nat.sub_zero, Nat.min_self,
    Nat.zero_add, ← length_eq, List.drop_length, List.append_nil]
  rfl

theorem texts_edit (cache : HighlightCache τ) (edit : Edit) :
    texts (cache.edit edit).lines = editLines (texts cache.lines) edit := by
  cases edit with
  | setText text => exact texts_setText cache text
  | replaceLines start removed inserted => exact texts_replaceLines cache start removed inserted

theorem consistent_editAll {cache : HighlightCache τ} (consistent : cache.Consistent)
    (edits : List Edit) : (cache.editAll edits).Consistent := by
  induction edits generalizing cache with
  | nil => exact consistent
  | cons edit later ih => exact ih (consistent_edit consistent edit)

theorem texts_editAll (cache : HighlightCache τ) (edits : List Edit) :
    texts (cache.editAll edits).lines = edits.foldl editLines (texts cache.lines) := by
  induction edits generalizing cache with
  | nil => rfl
  | cons edit later ih =>
    rw [List.foldl_cons, ← texts_edit]
    exact ih (cache.edit edit)

theorem tokenizer_editAll (cache : HighlightCache τ) (edits : List Edit) :
    (cache.editAll edits).tokenizer = cache.tokenizer := by
  induction edits generalizing cache with
  | nil => rfl
  | cons edit later ih => exact (ih (cache.edit edit)).trans (by cases edit <;> rfl)

theorem consistent_empty (tokenizer : τ) : Consistent ({ tokenizer } : HighlightCache τ) := trivial

theorem consistent_opened (tokenizer : τ) (opening : Option String) :
    (opened tokenizer opening).Consistent := by
  cases opening with
  | none => exact consistent_empty tokenizer
  | some text => exact consistent_edit (consistent_empty tokenizer) (.setText text)

theorem tokenizer_opened (tokenizer : τ) (opening : Option String) :
    (opened tokenizer opening).tokenizer = tokenizer := by
  cases opening <;> rfl

theorem texts_opened (tokenizer : τ) (opening : Option String) :
    texts (opened tokenizer opening).lines = openedLines opening := by
  cases opening with
  | none => rfl
  | some text => exact texts_setText _ text

theorem consistent_history (tokenizer : τ) (opening : Option String) (edits : List Edit) :
    ((opened tokenizer opening).editAll edits).Consistent :=
  consistent_editAll (consistent_opened tokenizer opening) edits

theorem tokenizer_history (tokenizer : τ) (opening : Option String) (edits : List Edit) :
    ((opened tokenizer opening).editAll edits).tokenizer = tokenizer := by
  rw [tokenizer_editAll, tokenizer_opened]

theorem lines_history (tokenizer : τ) (opening : Option String) (edits : List Edit) :
    ((opened tokenizer opening).editAll edits).lines =
      freshLines tokenizer .start (editedLines opening edits) := by
  have lines_eq := Threaded.eq_freshLines (consistent_history tokenizer opening edits)
  rw [texts_editAll, texts_opened, tokenizer_history] at lines_eq
  exact lines_eq

/-- After any history of edits the cache holds the edited lines, and what it knows of each line is
what tokenizing all of them from the start gives. -/
theorem history_eq_tokenizeLines (tokenizer : τ) (opening : Option String) (edits : List Edit) :
    let cache := (opened tokenizer opening).editAll edits
    let lines := editedLines opening edits
    let full := tokenizeLines tokenizer .start lines
    cache.lines.map CachedLine.text = lines ∧
      ∀ index,
        cache.highlights? index = full[index]?.map (fun line => line.tokens.map Token.highlight) ∧
        cache.endState? index = full[index]?.map TokenizedLine.endState := by
  intro cache lines full
  have lines_eq : cache.lines = freshLines tokenizer .start lines :=
    lines_history tokenizer opening edits
  constructor
  · rw [lines_eq]
    exact texts_freshLines .start lines
  · intro index
    constructor
    · rw [highlights?, lines_eq, ← List.getElem?_map, map_highlights_freshLines, List.getElem?_map]
    · rw [endState?, lines_eq, ← List.getElem?_map, map_endState_freshLines, List.getElem?_map]

end HighlightCache

end QueryHighlight
