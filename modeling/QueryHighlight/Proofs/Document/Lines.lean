import QueryHighlight.Document
import QueryHighlight.Proofs.Text.LineFeeds
import QueryHighlight.Proofs.Tokenizer.Coverage

/-!
The lines of a document one by one. Each comes from tokenizing one line of the text in some state,
so what holds of every tokenized line holds of every line of a document; and the texts of the lines
are the lines of the text.
-/

namespace QueryHighlight
open Scan Text

variable {tokenizer : QueryTokenizer}

/-- The line came out of a document under some configuration. -/
def DocumentLine.IsOfDocument (line : DocumentLine) : Prop :=
  ∃ (tokenizer : QueryTokenizer) (text : String), line ∈ tokenizeDocument tokenizer text

/-- The line has the tokens that a scan gives for a text without line ends. -/
structure DocumentLine.IsScanned (line : DocumentLine) (chars : List Char) : Prop where
  oneLine : IsOneLine chars
  tokens_eq : ∃ (tokenizer : QueryTokenizer) (lexemes : List Lexeme),
    line.tokens = tokenizer.placed 0 lexemes ∧ Lexeme.texts lexemes = chars

theorem texts_lexemes_scanLine (comments : Bool) (state : State) (line : String) :
    Lexeme.texts (scanLine comments state line).lexemes = line.toList :=
  Scanner.flatMap_text_drain { comments, state, rest := line.toList }

theorem text_tokenizeLine (tokenizer : QueryTokenizer) (state : State) (line : String) :
    String.join ((tokenizeLine tokenizer state line).tokens.map Token.text) = line := by
  have whole := texts_lexemes_scanLine tokenizer.comments state line
  have joined := join_map_text_placed tokenizer 0 (scanLine tokenizer.comments state line).lexemes
  rw [whole, String.ofList_toList] at joined
  exact joined

theorem DocumentLine.IsScanned.text_eq {line : DocumentLine} {chars : List Char}
    (scanned : line.IsScanned chars) : line.text = String.ofList chars := by
  obtain ⟨tokenizer, lexemes, tokens, texts⟩ := scanned.tokens_eq
  rw [DocumentLine.text, tokens, join_map_text_placed, texts]

/-- Every line among numbered ones is one of the lines, tokenized from some state. -/
theorem exists_of_mem_numberLines {line : DocumentLine} {number : Nat} {state : State}
    {lines : List Line}
    (member : line ∈ numberLines number lines
      (tokenizeLines tokenizer state (lines.map Line.text))) :
    ∃ source ∈ lines, ∃ entry, line.tokens = (tokenizeLine tokenizer entry source.text).tokens := by
  induction lines generalizing number state with
  | nil => cases member
  | cons source later ih =>
    rw [List.map_cons, tokenizeLines, numberLines] at member
    rcases List.mem_cons.mp member with rfl | behind
    · exact ⟨source, List.mem_cons_self, state, rfl⟩
    · obtain ⟨other, present, entry, tokens⟩ := ih behind
      exact ⟨other, List.mem_cons_of_mem _ present, entry, tokens⟩

theorem map_text_linesFrom (offset : Nat) (others : List (LineEnd × List Char)) :
    (linesFrom offset others).map Line.text = others.map fun other => String.ofList other.2 := by
  induction others generalizing offset with
  | nil => rfl
  | cons other later ih => rw [linesFrom, List.map_cons, List.map_cons, ih]

theorem map_text_splitLines (text : String) :
    (splitLines text).map Line.text = (Segments.ofText text.toList).lines.map String.ofList := by
  rw [splitLines, Segments.lines, List.map_cons, List.map_cons, map_text_linesFrom, List.map_map]
  rfl

theorem isOneLine_of_mem_splitLines {text : String} {line : Line}
    (member : line ∈ splitLines text) : IsOneLine line.text.toList := by
  have listed : line.text ∈ (Segments.ofText text.toList).lines.map String.ofList := by
    rw [← map_text_splitLines]
    exact List.mem_map_of_mem member
  obtain ⟨chars, present, same⟩ := List.mem_map.mp listed
  rw [← same, String.toList_ofList]
  exact isOneLine_of_mem_lines text.toList chars present

theorem DocumentLine.IsOfDocument.exists_isScanned {line : DocumentLine}
    (known : line.IsOfDocument) : ∃ chars, line.IsScanned chars := by
  obtain ⟨tokenizer, text, member⟩ := known
  obtain ⟨source, present, entry, tokens⟩ := exists_of_mem_numberLines member
  refine ⟨source.text.toList, isOneLine_of_mem_splitLines present, tokenizer, _, tokens, ?_⟩
  exact texts_lexemes_scanLine tokenizer.comments entry source.text

theorem map_text_numberLines (tokenizer : QueryTokenizer) (number : Nat) (state : State)
    (lines : List Line) :
    (numberLines number lines (tokenizeLines tokenizer state (lines.map Line.text))).map
        DocumentLine.text = lines.map Line.text := by
  induction lines generalizing number state with
  | nil => rfl
  | cons source later ih =>
    rw [List.map_cons, tokenizeLines, numberLines, List.map_cons, ih, DocumentLine.text,
      text_tokenizeLine]

/-- The texts of the lines of a document are the lines of its text. -/
theorem map_text_tokenizeDocument (tokenizer : QueryTokenizer) (text : String) :
    (tokenizeDocument tokenizer text).map DocumentLine.text =
      (Segments.ofText text.toList).lines.map String.ofList := by
  rw [← map_text_splitLines]
  exact map_text_numberLines tokenizer 0 .start (splitLines text)

end QueryHighlight
