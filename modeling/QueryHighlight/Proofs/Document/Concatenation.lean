import QueryHighlight.Document
import QueryHighlight.Proofs.Scan.Carry
import QueryHighlight.Proofs.Text.Boundary
import QueryHighlight.Proofs.Text.Concatenation

/-!
Documents put together. A line feed between two texts separates their lines, so the document of both
is that of the first and behind it the lines of the second, moved to where they are now and tokenized
from the state that the first leaves. If the last line of the first ends in anything but a backslash
that is the start state, and the second document is all there as it was.
-/

namespace QueryHighlight
open Scan Text

def Text.Line.shift (distance : Nat) (line : Line) : Line :=
  { line with offset := line.offset + distance }

/-- The line with other lines put in front of it: how many, and how many bytes they take. -/
def DocumentLine.behind (lines bytes : Nat) (line : DocumentLine) : DocumentLine :=
  { line with number := line.number + lines, start := line.start + bytes }

/-- The state that the last line of a document leaves. -/
def exitOfDocument (lines : List DocumentLine) : State :=
  (lines.getLast?.map DocumentLine.endState).getD .start

section

variable {τ : Type} [LineTokenizer τ] (tokenizer : τ)

/-- The lines of a text, tokenized one after the other from a state. -/
def tokenizeDocumentFrom (state : State) (text : String) : List DocumentLine :=
  numberLines 0 (splitLines text)
    (tokenizeLines tokenizer state ((splitLines text).map Line.text))

theorem tokenizeDocumentFrom_start (text : String) :
    tokenizeDocumentFrom tokenizer .start text = tokenizeDocument tokenizer text := rfl

/-- The state in which a line would start that follows the given ones. -/
def stateBehind (entry : State) (lines : List TokenizedLine) : State :=
  (lines.getLast?.map TokenizedLine.endState).getD entry

theorem stateBehind_cons (entry : State) (line : TokenizedLine) (rest : List TokenizedLine) :
    stateBehind entry (line :: rest) = stateBehind line.endState rest := by
  unfold stateBehind
  rw [List.getLast?_cons]
  cases rest.getLast? <;> rfl

theorem tokenizeLines_append (entry : State) (first second : List String) :
    tokenizeLines tokenizer entry (first ++ second) =
      tokenizeLines tokenizer entry first ++
        tokenizeLines tokenizer (stateBehind entry (tokenizeLines tokenizer entry first)) second := by
  induction first generalizing entry with
  | nil => rfl
  | cons line rest ih =>
    rw [List.cons_append, tokenizeLines, tokenizeLines, ih, stateBehind_cons, List.cons_append]

theorem length_tokenizeLines (entry : State) (lines : List String) :
    (tokenizeLines tokenizer entry lines).length = lines.length := by
  induction lines generalizing entry with
  | nil => rfl
  | cons line rest ih => rw [tokenizeLines, List.length_cons, ih, List.length_cons]

end

theorem numberLines_append {lines : List Line} {tokenized : List TokenizedLine}
    (length_eq : tokenized.length = lines.length) (number : Nat) (later : List Line)
    (tokenizedLater : List TokenizedLine) :
    numberLines number (lines ++ later) (tokenized ++ tokenizedLater) =
      numberLines number lines tokenized ++
        numberLines (number + lines.length) later tokenizedLater := by
  induction lines generalizing number tokenized with
  | nil => rw [List.length_eq_zero_iff.mp length_eq]; rfl
  | cons line rest ih =>
    obtain ⟨first, others, rfl⟩ := List.exists_cons_of_length_eq_add_one length_eq
    have othersLength : others.length = rest.length := Nat.succ.inj length_eq
    rw [List.cons_append, List.cons_append, numberLines, numberLines, ih othersLength,
      List.cons_append, List.length_cons, Nat.add_assoc, Nat.add_comm 1]

theorem numberLines_shift (number count distance : Nat) (lines : List Line)
    (tokenized : List TokenizedLine) :
    numberLines (number + count) (lines.map (Line.shift distance)) tokenized =
      (numberLines number lines tokenized).map (DocumentLine.behind count distance) := by
  induction lines generalizing number tokenized with
  | nil => rfl
  | cons line rest ih =>
    cases tokenized with
    | nil => rfl
    | cons first others =>
      rw [List.map_cons, numberLines, numberLines, List.map_cons, Nat.add_right_comm, ih]
      rfl

theorem length_numberLines {lines : List Line} {tokenized : List TokenizedLine}
    (length_eq : tokenized.length = lines.length) (number : Nat) :
    (numberLines number lines tokenized).length = lines.length := by
  induction lines generalizing number tokenized with
  | nil => rfl
  | cons line rest ih =>
    obtain ⟨first, others, rfl⟩ := List.exists_cons_of_length_eq_add_one length_eq
    rw [numberLines, List.length_cons, ih (Nat.succ.inj length_eq), List.length_cons]

theorem map_endState_numberLines {lines : List Line} {tokenized : List TokenizedLine}
    (length_eq : tokenized.length = lines.length) (number : Nat) :
    (numberLines number lines tokenized).map DocumentLine.endState =
      tokenized.map TokenizedLine.endState := by
  induction lines generalizing number tokenized with
  | nil => rw [List.length_eq_zero_iff.mp length_eq]; rfl
  | cons line rest ih =>
    obtain ⟨first, others, rfl⟩ := List.exists_cons_of_length_eq_add_one length_eq
    rw [numberLines, List.map_cons, ih (Nat.succ.inj length_eq), List.map_cons]

theorem linesFrom_append (offset : Nat) (others later : List (LineEnd × List Char)) :
    linesFrom offset (others ++ later) =
      linesFrom offset others ++
        linesFrom (offset + byteLength (others.flatMap fun (lineEnd, line) => lineEnd.chars ++ line))
          later := by
  induction others generalizing offset with
  | nil => rfl
  | cons other rest ih =>
    simp only [List.cons_append, linesFrom, ih, List.flatMap_cons, byteLength_append, Nat.add_assoc]

theorem linesFrom_shift (offset distance : Nat) (others : List (LineEnd × List Char)) :
    linesFrom (offset + distance) others =
      (linesFrom offset others).map (Line.shift distance) := by
  induction others generalizing offset with
  | nil => rfl
  | cons other rest ih =>
    simp only [linesFrom, List.map_cons, Line.shift, ← ih, Nat.add_right_comm]

/-- The lines of the second text start behind the first text and the line feed. -/
theorem splitLines_append {first : String} (noReturn : first.toList.getLast? ≠ some '\r')
    (second : String) :
    splitLines (first ++ "\n" ++ second) =
      splitLines first ++ (splitLines second).map (Line.shift (first.utf8ByteSize + 1)) := by
  let segments := Segments.ofText first.toList
  let later := Segments.ofText second.toList
  have whole : Segments.ofText (first ++ "\n" ++ second).toList = segments.followedBy later := by
    rw [String.toList_append, String.toList_append, List.append_assoc]
    exact Segments.ofText_append_lineFeed noReturn second.toList
  have bytes : byteLength segments.first +
      byteLength (segments.others.flatMap fun (lineEnd, line) => lineEnd.chars ++ line) =
        first.utf8ByteSize := by
    rw [← byteLength_append, utf8ByteSize_eq_byteLength]
    exact congrArg byteLength (Segments.toText_ofText first.toList)
  have feed : byteLength LineEnd.lineFeed.chars = 1 := by decide
  have start : first.utf8ByteSize + 1 + byteLength later.first =
      byteLength later.first + (first.utf8ByteSize + 1) := by omega
  have behind : linesFrom first.utf8ByteSize ((.lineFeed, later.first) :: later.others) =
      (splitLines second).map (Line.shift (first.utf8ByteSize + 1)) := by
    rw [linesFrom, feed, start, linesFrom_shift, splitLines, List.map_cons, Line.shift,
      Nat.zero_add]
  calc
    splitLines (first ++ "\n" ++ second) =
        ⟨0, String.ofList segments.first⟩ :: linesFrom (byteLength segments.first)
          (segments.others ++ (.lineFeed, later.first) :: later.others) := by
      rw [splitLines, whole]
      rfl
    _ = splitLines first ++ linesFrom first.utf8ByteSize
          ((.lineFeed, later.first) :: later.others) := by
      rw [linesFrom_append, bytes]
      rfl
    _ = _ := by rw [behind]

section

variable {τ : Type} [LineTokenizer τ] (tokenizer : τ)

theorem exitOfDocument_eq (state : State) {text : String} {lines : List DocumentLine}
    (lines_eq : lines = tokenizeDocumentFrom tokenizer state text) :
    exitOfDocument lines =
      stateBehind .start (tokenizeLines tokenizer state ((splitLines text).map Line.text)) := by
  have length_eq :
      (tokenizeLines tokenizer state ((splitLines text).map Line.text)).length =
        (splitLines text).length := by
    rw [length_tokenizeLines, List.length_map]
  rw [exitOfDocument, stateBehind, ← List.getLast?_map, ← List.getLast?_map, lines_eq,
    tokenizeDocumentFrom, map_endState_numberLines length_eq]

theorem length_tokenizeDocumentFrom (state : State) (text : String) :
    (tokenizeDocumentFrom tokenizer state text).length = (splitLines text).length := by
  apply length_numberLines
  rw [length_tokenizeLines, List.length_map]

theorem tokenizeDocument_behind {first : String} (noReturn : first.toList.getLast? ≠ some '\r')
    (second : String) :
    tokenizeDocument tokenizer (first ++ "\n" ++ second) =
      tokenizeDocument tokenizer first ++
        (tokenizeDocumentFrom tokenizer (exitOfDocument (tokenizeDocument tokenizer first))
          second).map (DocumentLine.behind (tokenizeDocument tokenizer first).length
            (first.utf8ByteSize + 1)) := by
  let lines := (splitLines first).map Line.text
  let tokenized := tokenizeLines tokenizer .start lines
  have length_eq : tokenized.length = (splitLines first).length := by
    rw [length_tokenizeLines, List.length_map]
  have exit_eq : exitOfDocument (tokenizeDocument tokenizer first) = stateBehind .start tokenized :=
    exitOfDocument_eq tokenizer .start rfl
  have count_eq : (tokenizeDocument tokenizer first).length = (splitLines first).length :=
    length_tokenizeDocumentFrom tokenizer .start first
  have texts_eq : ((splitLines second).map (Line.shift (first.utf8ByteSize + 1))).map Line.text =
      (splitLines second).map Line.text := by
    rw [List.map_map]
    rfl
  rw [tokenizeDocument, splitLines_append noReturn, List.map_append, texts_eq,
    tokenizeLines_append, numberLines_append length_eq, numberLines_shift, exit_eq, count_eq]
  rfl

end

/-- A document leaves the start state if its last line ends in anything but a backslash. -/
theorem exitOfDocument_eq_start (tokenizer : QueryTokenizer) (state : State) {text : String}
    {last : Line} (isLast : (splitLines text).getLast? = some last)
    (stops : endsInBackslash last.text = false) :
    exitOfDocument (tokenizeDocumentFrom tokenizer state text) = .start := by
  obtain ⟨before, split⟩ := List.getLast?_eq_some_iff.mp isLast
  rw [exitOfDocument_eq tokenizer state rfl, split, List.map_append, tokenizeLines_append,
    stateBehind, List.map_singleton, tokenizeLines, tokenizeLines, List.getLast?_concat]
  exact endState_scanLine tokenizer.comments _ stops

/-- The document of two texts with a line feed between them: all lines of the first and behind them
those of the second, from the state that the first leaves. It is the second document itself, moved,
if the last line of the first does not end in a backslash. -/
theorem tokenizeDocument_append (tokenizer : QueryTokenizer) {first : String}
    (noReturn : first.toList.getLast? ≠ some '\r') (second : String) :
    let head := tokenizeDocument tokenizer first
    let tail := tokenizeDocumentFrom tokenizer (exitOfDocument head) second
    tokenizeDocument tokenizer (first ++ "\n" ++ second) =
        head ++ tail.map (DocumentLine.behind head.length (first.utf8ByteSize + 1)) ∧
      ∀ last, (splitLines first).getLast? = some last → endsInBackslash last.text = false →
        tail = tokenizeDocument tokenizer second := by
  intro head tail
  refine ⟨tokenizeDocument_behind tokenizer noReturn second, ?_⟩
  intro last isLast stops
  have exit_eq : exitOfDocument head = .start :=
    exitOfDocument_eq_start tokenizer .start isLast stops
  calc
    tail = tokenizeDocumentFrom tokenizer .start second := by rw [← exit_eq]
    _ = tokenizeDocument tokenizer second := tokenizeDocumentFrom_start tokenizer second

/-- Behind a backslash the second text begins within the literal, otherwise it begins anew. -/
theorem tokenizeDocument_append_behind_literal :
    let tokenizer : QueryTokenizer := ⟨false, ⟨.empty, .empty, .empty⟩⟩
    let carrying := tokenizeDocument tokenizer "a\r\n'é\\"
    let closing := tokenizeDocument tokenizer "'é"
    exitOfDocument carrying = .string .single ∧
      tokenizeDocument tokenizer ("a\r\n'é\\" ++ "\n" ++ "b'\rc") =
        carrying ++ (tokenizeDocumentFrom tokenizer (exitOfDocument carrying) "b'\rc").map
          (DocumentLine.behind 2 8) ∧
      tokenizeDocument tokenizer ("'é" ++ "\n" ++ "b'\rc") =
        closing ++ (tokenizeDocument tokenizer "b'\rc").map (DocumentLine.behind 1 4) := by
  intro tokenizer carrying closing
  have inside := tokenizeDocument_append tokenizer
    (show ("a\r\n'é\\").toList.getLast? ≠ some '\r' by decide +kernel) "b'\rc"
  have outside := tokenizeDocument_append tokenizer
    (show ("'é").toList.getLast? ≠ some '\r' by decide +kernel) "b'\rc"
  have stops := outside.2 ⟨0, "'é"⟩ (by decide +kernel) (by decide +kernel)
  refine ⟨by decide +kernel, inside.1, ?_⟩
  rw [← stops]
  exact outside.1

end QueryHighlight
