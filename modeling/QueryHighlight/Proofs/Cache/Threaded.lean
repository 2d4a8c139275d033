import QueryHighlight.Cache

/-!
The invariant of the highlight cache: every line is what the tokenizer makes of its text in the
state it was tokenized from, and that state is the one in which the line before ended. In the
middle of an edit the states on both sides of the new lines disagree; settling the lines behind
them mends this, and may stop at the first line that agrees because the rest was right before.
-/

namespace QueryHighlight
open Scan

namespace CachedLine

variable {τ : Type} [LineTokenizer τ] {tokenizer : τ} {entry : State}

/-- The lines are tokenized one after the other, the first of them from `entry`. -/
def Threaded (tokenizer : τ) : State → List CachedLine → Prop
  | _, [] => True
  | entry, line :: rest =>
    line = fresh tokenizer entry line.text ∧ Threaded tokenizer line.endState rest

def texts (lines : List CachedLine) : List String := lines.map CachedLine.text

@[simp] theorem exitState_nil (entry : State) : exitState entry [] = entry := rfl

@[simp] theorem exitState_cons (entry : State) (line : CachedLine) (rest : List CachedLine) :
    exitState entry (line :: rest) = exitState line.endState rest := by
  unfold exitState
  rw [List.getLast?_cons]
  cases rest.getLast? <;> rfl

theorem threaded_append {first second : List CachedLine} :
    Threaded tokenizer entry (first ++ second) ↔
      Threaded tokenizer entry first ∧ Threaded tokenizer (exitState entry first) second := by
  induction first generalizing entry with
  | nil => exact ⟨fun threaded => ⟨trivial, threaded⟩, And.right⟩
  | cons line rest ih =>
    rw [List.cons_append, Threaded, Threaded, ih, exitState_cons, and_assoc]

theorem Threaded.take {lines : List CachedLine} (threaded : Threaded tokenizer entry lines)
    (count : Nat) : Threaded tokenizer entry (lines.take count) := by
  rw [← List.take_append_drop count lines, threaded_append] at threaded
  exact threaded.1

theorem Threaded.drop {lines : List CachedLine} (threaded : Threaded tokenizer entry lines)
    (count : Nat) :
    Threaded tokenizer (exitState entry (lines.take count)) (lines.drop count) := by
  rw [← List.take_append_drop count lines, threaded_append] at threaded
  exact threaded.2

@[simp] theorem text_fresh (state : State) (text : String) :
    (fresh tokenizer state text).text = text := rfl

theorem threaded_freshLines (entry : State) (lines : List String) :
    Threaded tokenizer entry (freshLines tokenizer entry lines) := by
  induction lines generalizing entry with
  | nil => trivial
  | cons text rest ih => exact ⟨rfl, ih _⟩

@[simp] theorem texts_freshLines (entry : State) (lines : List String) :
    texts (freshLines tokenizer entry lines) = lines := by
  induction lines generalizing entry with
  | nil => rfl
  | cons text rest ih =>
    rw [freshLines, texts, List.map_cons, text_fresh]
    exact congrArg _ (ih _)

@[simp] theorem length_freshLines (entry : State) (texts : List String) :
    (freshLines tokenizer entry texts).length = texts.length := by
  induction texts generalizing entry with
  | nil => rfl
  | cons text rest ih => rw [freshLines, List.length_cons, ih, List.length_cons]

/-- The invariant leaves no choice: a threaded list is determined by its texts. -/
theorem Threaded.eq_freshLines {lines : List CachedLine}
    (threaded : Threaded tokenizer entry lines) :
    lines = freshLines tokenizer entry (texts lines) := by
  induction lines generalizing entry with
  | nil => rfl
  | cons line rest ih =>
    obtain ⟨same, later⟩ := threaded
    rw [texts, List.map_cons, freshLines, ← same]
    exact congrArg _ (ih later)

theorem map_highlights_freshLines (entry : State) (lines : List String) :
    (freshLines tokenizer entry lines).map CachedLine.highlights =
      (tokenizeLines tokenizer entry lines).map fun line => line.tokens.map Token.highlight := by
  induction lines generalizing entry with
  | nil => rfl
  | cons text rest ih => exact congrArg _ (ih _)

theorem map_endState_freshLines (entry : State) (lines : List String) :
    (freshLines tokenizer entry lines).map CachedLine.endState =
      (tokenizeLines tokenizer entry lines).map TokenizedLine.endState := by
  induction lines generalizing entry with
  | nil => rfl
  | cons text rest ih => exact congrArg _ (ih _)

theorem texts_append (first second : List CachedLine) :
    texts (first ++ second) = texts first ++ texts second := List.map_append

/-- Settling keeps every text. -/
theorem texts_settle (entry : State) (lines : List CachedLine) :
    texts ((settle tokenizer entry lines).1 ++ (settle tokenizer entry lines).2) =
      texts lines := by
  induction lines generalizing entry with
  | nil => rfl
  | cons line rest ih =>
    rw [settle]
    split
    · rfl
    · exact congrArg (line.text :: ·) (ih _)

/-- Lines that were threaded from any state are threaded from `entry` once they are settled. -/
theorem threaded_settle {before : State} (entry : State) {lines : List CachedLine}
    (threaded : Threaded tokenizer before lines) :
    Threaded tokenizer entry
      ((settle tokenizer entry lines).1 ++ (settle tokenizer entry lines).2) := by
  induction lines generalizing before entry with
  | nil => trivial
  | cons line rest ih =>
    obtain ⟨same, later⟩ := threaded
    rw [settle]
    split
    next agrees =>
      -- The line was tokenized from the very state that reaches it now.
      have startState_eq : line.startState = before := by rw [same]; rfl
      rw [startState_eq] at agrees
      subst agrees
      exact ⟨same, later⟩
    next => exact ⟨rfl, ih _ later⟩

end CachedLine

end QueryHighlight
