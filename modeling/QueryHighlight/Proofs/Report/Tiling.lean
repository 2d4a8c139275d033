import QueryHighlight.Proofs.Text.Boundary
import QueryHighlight.Report.Terminal

/-!
Highlights that cut up a text. The tokens of a line lie one behind the other on it, each around its
own text, and joining tokens of one kind keeps it so. A line can therefore be painted run by run:
every run is cut out at character boundaries, and it is the text at its span that is painted.
-/

namespace QueryHighlight
open Text

/-- The highlights lie one behind the other on the text, whose first byte is at `offset`. -/
inductive Tiled : Nat → List Char → List Highlight → Prop
  | nil (offset : Nat) : Tiled offset [] []
  | run {offset : Nat} {piece rest : List Char} {runs : List Highlight} (kind : Kind)
      (later : Tiled (offset + byteLength piece) rest runs) :
      Tiled offset (piece ++ rest) (⟨kind, ⟨offset, offset + byteLength piece⟩⟩ :: runs)

/-- A highlight that can be cut out of a text. -/
structure Highlight.IsCutOf (text : String) (run : Highlight) : Prop where
  ordered : run.span.start ≤ run.span.stop
  start_valid : String.Pos.Raw.IsValid text ⟨run.span.start⟩
  stop_valid : String.Pos.Raw.IsValid text ⟨run.span.stop⟩

/-- The part of a text that a highlight is around. -/
def Highlight.pieceOf (text : List Char) (run : Highlight) : List Char :=
  takeBytes run.span.length (dropBytes run.span.start text)

theorem tiled_placed (tokenizer : QueryTokenizer) (offset : Nat) (lexemes : List Scan.Lexeme) :
    Tiled offset (lexemes.flatMap Scan.Lexeme.text)
      ((tokenizer.placed offset lexemes).map Token.highlight) := by
  induction lexemes generalizing offset with
  | nil => exact .nil offset
  | cons lexeme later ih => exact .run (tokenizer.kindOf lexeme) (ih (offset + lexeme.length))

/-- Growing a run by what follows it keeps the runs in one row. -/
theorem tiled_runsFrom {offset : Nat} {piece rest : List Char} {runs : List Highlight} (kind : Kind)
    (later : Tiled (offset + byteLength piece) rest runs) :
    Tiled offset (piece ++ rest)
      (Highlight.runsFrom ⟨kind, ⟨offset, offset + byteLength piece⟩⟩ runs) := by
  induction runs generalizing offset piece rest kind with
  | nil => exact .run kind later
  | cons next others ih =>
    cases later with
    | @run _ second behind _ other later =>
      rw [Highlight.runsFrom]
      split
      · -- The joined run is around both pieces.
        have joined : Span.merge ⟨offset, offset + byteLength piece⟩
            ⟨offset + byteLength piece, offset + byteLength piece + byteLength second⟩ =
            ⟨offset, offset + byteLength (piece ++ second)⟩ := by
          rw [Span.merge, byteLength_append, Nat.min_eq_left (Nat.le_add_right _ _),
            Nat.max_eq_right (Nat.le_add_right _ _), Nat.add_assoc]
        rw [Nat.add_assoc, ← byteLength_append] at later
        rw [joined, ← List.append_assoc]
        exact ih kind later
      · exact .run kind (ih other later)

theorem tiled_coalesce {offset : Nat} {text : List Char} {runs : List Highlight}
    (tiled : Tiled offset text runs) : Tiled offset text (Highlight.coalesce runs) := by
  cases tiled with
  | nil => exact .nil offset
  | run kind later => exact tiled_runsFrom kind later

namespace Tiled

variable {text : List Char} {runs : List Highlight}

/-- No run begins or ends inside a character. -/
theorem isCutOf {whole : String} (before : List Char) (tiled : Tiled (byteLength before) text runs)
    (split : whole.toList = before ++ text) : ∀ run ∈ runs, run.IsCutOf whole := by
  generalize at_eq : byteLength before = offset at tiled
  induction tiled generalizing before with
  | nil => intro run absent; cases absent
  | @run offset piece rest runs kind later ih =>
    have regrouped : whole.toList = (before ++ piece) ++ rest := by
      rw [split, List.append_assoc]
    have stop_eq : byteLength (before ++ piece) = offset + byteLength piece := by
      rw [byteLength_append, at_eq]
    intro run member
    rcases List.mem_cons.mp member with rfl | behind
    · refine ⟨Nat.le_add_right _ _, ?_, ?_⟩
      · exact at_eq ▸ isValid_of_split split
      · exact stop_eq ▸ isValid_of_split regrouped
    · exact ih _ regrouped stop_eq run behind

/-- Painting the runs of a text one after the other paints each with the text at its span. -/
theorem paintRuns_eq (colors : Bool) {whole : List Char} (before : List Char)
    (tiled : Tiled (byteLength before) text runs) (split : whole = before ++ text) :
    Terminal.paintRuns colors text runs =
      runs.map fun run => Terminal.painted colors run.kind (run.pieceOf whole) := by
  generalize at_eq : byteLength before = offset at tiled
  induction tiled generalizing before with
  | nil => rfl
  | @run offset piece rest runs kind later ih =>
    have length_eq : (⟨offset, offset + byteLength piece⟩ : Span).length = byteLength piece :=
      Nat.add_sub_cancel_left offset _
    have piece_eq :
        Highlight.pieceOf whole ⟨kind, ⟨offset, offset + byteLength piece⟩⟩ = piece := by
      rw [Highlight.pieceOf, length_eq, split, ← at_eq, dropBytes_append, takeBytes_append]
    have regrouped : whole = (before ++ piece) ++ rest := by
      rw [split, List.append_assoc]
    rw [Terminal.paintRuns, length_eq, takeBytes_append, dropBytes_append, List.map_cons, piece_eq,
      ih _ regrouped (by rw [byteLength_append, at_eq])]

end Tiled

end QueryHighlight
