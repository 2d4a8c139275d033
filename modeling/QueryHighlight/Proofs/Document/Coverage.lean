import Mathlib.Data.List.Forall2
import QueryHighlight.Document
import QueryHighlight.Proofs.Text.Lines
import QueryHighlight.Proofs.Tokenizer.Coverage

/-!
The tokens of a document are the document without its line ends. Three layers count offsets: the
splitter counts the bytes of lines and line ends, the tokenizer those of the tokens on a line, and
a highlight has the sum. That they agree is said once, by the layout of a text in tokens and line
ends; what follows from a layout needs nothing of how it came about.
-/

namespace QueryHighlight
open Scan Text

/-- From `offset` on the text is laid out in tokens and line ends. A token lies on one line and has
its place in the document as its span. -/
inductive Laid : Nat → List Char → List Token → Prop
  | nil (offset : Nat) : Laid offset [] []
  | lineEnd {offset : Nat} {rest : List Char} {tokens : List Token} (lineEnd : LineEnd)
      (later : Laid (offset + byteLength lineEnd.chars) rest tokens) :
      Laid offset (lineEnd.chars ++ rest) tokens
  | token {offset : Nat} {piece rest : List Char} {tokens : List Token} (kind : Kind)
      (nonempty : piece ≠ []) (oneLine : IsOneLine piece)
      (later : Laid (offset + byteLength piece) rest tokens) :
      Laid offset (piece ++ rest)
        (⟨kind, String.ofList piece, ⟨offset, offset + byteLength piece⟩⟩ :: tokens)

namespace Laid

variable {offset : Nat} {chars : List Char} {tokens : List Token}

theorem append {second : List Char} {others : List Token} (first : Laid offset chars tokens)
    (next : Laid (offset + byteLength chars) second others) :
    Laid offset (chars ++ second) (tokens ++ others) := by
  induction first with
  | nil => exact next
  | lineEnd ending _ ih =>
    rw [List.append_assoc]
    rw [byteLength_append, ← Nat.add_assoc] at next
    exact .lineEnd ending (ih next)
  | token kind nonempty oneLine _ ih =>
    rw [List.append_assoc]
    rw [byteLength_append, ← Nat.add_assoc] at next
    exact .token kind nonempty oneLine (ih next)

theorem le_start (laid : Laid offset chars tokens) :
    ∀ token ∈ tokens, offset ≤ token.span.start := by
  induction laid with
  | nil => intro token absent; cases absent
  | lineEnd _ _ ih =>
    intro token member
    exact Nat.le_trans (Nat.le_add_right _ _) (ih token member)
  | token kind _ _ _ ih =>
    intro token member
    rcases List.mem_cons.mp member with rfl | later
    · exact Nat.le_refl _
    · exact Nat.le_trans (Nat.le_add_right _ _) (ih token later)

theorem ordered (laid : Laid offset chars tokens) :
    (tokens.map Token.span).Pairwise fun first second => first.stop ≤ second.start := by
  induction laid with
  | nil => exact .nil
  | lineEnd _ _ ih => exact ih
  | token kind _ _ later ih =>
    refine .cons ?_ ih
    intro span member
    obtain ⟨token, present, rfl⟩ := List.mem_map.mp member
    exact later.le_start token present

theorem isPiece {text : String} (before : List Char)
    (laid : Laid (byteLength before) chars tokens) (split : text.toList = before ++ chars) :
    ∀ token ∈ tokens, IsPiece text token := by
  generalize at_eq : byteLength before = start at laid
  induction laid generalizing before with
  | nil => intro token absent; cases absent
  | lineEnd ending _ ih =>
    rw [← List.append_assoc] at split
    exact ih _ split (by rw [byteLength_append, at_eq])
  | token kind nonempty _ _ ih =>
    intro token member
    rcases List.mem_cons.mp member with rfl | later
    · rw [← at_eq]
      exact isPiece_of_split kind split nonempty
    · rw [← List.append_assoc] at split
      exact ih _ split (by rw [byteLength_append, at_eq]) token later

theorem contains_eq_false {position : Nat} (laid : Laid offset chars tokens)
    (before : position < offset) :
    ∀ span ∈ tokens.map Token.span, span.contains position = false := by
  intro span member
  obtain ⟨token, present, rfl⟩ := List.mem_map.mp member
  have start := laid.le_start token present
  simp only [Span.contains, Bool.and_eq_false_iff, decide_eq_false_iff_not]
  omega

/-- A byte of the text lies in no token exactly when it belongs to a line end. -/
theorem uncovered (laid : Laid offset chars tokens) (index : Nat) :
    (index < byteLength chars ∧
        ∀ span ∈ tokens.map Token.span, span.contains (offset + index) = false) ↔
      (bytes chars)[index]?.any endsLine = true := by
  -- The byte is one of the first token or line end, or else one of the layout behind it.
  induction laid generalizing index with
  | nil => simp [bytes]
  | @lineEnd offset rest tokens ending later ih =>
    rcases Nat.lt_or_ge index (byteLength ending.chars) with inside | behind
    · rw [getElem?_bytes_of_lt inside, byteLength_append]
      refine iff_of_true ⟨Nat.lt_add_right _ inside, ?_⟩ ?_
      · exact later.contains_eq_false (Nat.add_lt_add_left inside offset)
      · obtain ⟨byte, found, member⟩ := exists_byte inside
        rw [found]
        exact endsLine_of_mem_lineEnd member
    · obtain ⟨further, rfl⟩ := Nat.exists_eq_add_of_le behind
      rw [getElem?_bytes_add, ← ih further, byteLength_append, Nat.add_lt_add_iff_left,
        Nat.add_assoc]
  | @token offset piece rest tokens kind nonempty oneLine later ih =>
    rcases Nat.lt_or_ge index (byteLength piece) with inside | behind
    · have covering : (⟨offset, offset + byteLength piece⟩ : Span).contains (offset + index) := by
        simp only [Span.contains, Bool.and_eq_true, decide_eq_true_eq]
        omega
      rw [getElem?_bytes_of_lt inside]
      refine iff_of_false ?_ ?_
      · rintro ⟨-, outside⟩
        rw [outside _ List.mem_cons_self] at covering
        cases covering
      · obtain ⟨byte, found, member⟩ := exists_byte inside
        rw [found]
        exact ne_true_of_eq_false (not_endsLine_of_isOneLine oneLine member)
    · obtain ⟨further, rfl⟩ := Nat.exists_eq_add_of_le behind
      have passed : (⟨offset, offset + byteLength piece⟩ : Span).contains
          (offset + (byteLength piece + further)) = false := by
        simp only [Span.contains, Bool.and_eq_false_iff, decide_eq_false_iff_not]
        omega
      rw [getElem?_bytes_add, ← ih further, byteLength_append, Nat.add_lt_add_iff_left,
        List.map_cons, List.forall_mem_cons, and_iff_right passed, Nat.add_assoc]

end Laid

/-- A token on a line that starts at `start`, with its place in the document. -/
def Token.shift (start : Nat) (token : Token) : Token :=
  { token with span := token.span.shift start }

/-- The tokens of a line with their places in the document. -/
def DocumentLine.placed (line : DocumentLine) : List Token :=
  line.tokens.map (Token.shift line.start)

/-- Where the highlights of all lines lie in the document, in order. -/
def documentSpans (lines : List DocumentLine) : List Span :=
  lines.flatMap fun line => line.highlights.map Highlight.span

/-- The lines are numbered from zero; their highlights lie one behind the other on the text, each
around the text of its token, and leave out the bytes of the line ends and no others. -/
structure CoversDocument (text : String) (lines : List DocumentLine) : Prop where
  numbered : lines.map DocumentLine.number = List.range lines.length
  nonempty : ∀ span ∈ documentSpans lines, span.start < span.stop
  ordered : (documentSpans lines).Pairwise fun first second => first.stop ≤ second.start
  pieces : ∀ line ∈ lines, List.Forall₂
    (fun token highlight => IsPiece text { token with span := highlight.span })
    line.tokens line.highlights
  uncovered : ∀ offset,
    (offset < text.utf8ByteSize ∧ ∀ span ∈ documentSpans lines, span.contains offset = false) ↔
      (bytes text.toList)[offset]?.any endsLine = true

theorem map_span_placed (lines : List DocumentLine) :
    (lines.flatMap DocumentLine.placed).map Token.span = documentSpans lines := by
  rw [List.map_flatMap, documentSpans]
  refine congrArg (lines.flatMap ·) (funext fun line => ?_)
  rw [DocumentLine.placed, DocumentLine.highlights, List.map_map, List.map_map]
  rfl

theorem laid_placed (tokenizer : QueryTokenizer) (start offset : Nat) (lexemes : List Lexeme)
    (nonempty : ∀ lexeme ∈ lexemes, lexeme.text ≠ []) (oneLine : IsOneLine (Lexeme.texts lexemes)) :
    Laid (offset + start) (Lexeme.texts lexemes)
      ((tokenizer.placed offset lexemes).map (Token.shift start)) := by
  induction lexemes generalizing offset with
  | nil => exact .nil _
  | cons lexeme rest ih =>
    obtain ⟨first, others⟩ := isOneLine_append.mp oneLine
    have later := ih (offset + lexeme.length)
      (fun other present => nonempty other (List.mem_cons_of_mem _ present)) others
    rw [Nat.add_right_comm] at later
    have unread := nonempty lexeme List.mem_cons_self
    have laid := Laid.token (tokenizer.kindOf lexeme) unread first later
    rw [← Lexeme.length, Nat.add_right_comm] at laid
    exact laid

/-- A line is laid out in its tokens. -/
theorem laid_tokenizeLine (tokenizer : QueryTokenizer) (state : State) (start : Nat)
    {line : List Char} (oneLine : IsOneLine line) :
    Laid start line
      ((tokenizeLine tokenizer state (String.ofList line)).tokens.map (Token.shift start)) := by
  let scanner : Scanner :=
    { comments := tokenizer.comments, state, rest := (String.ofList line).toList }
  have whole : Lexeme.texts scanner.drain.lexemes = line := by
    rw [← String.toList_ofList (l := line)]
    exact Scanner.flatMap_text_drain scanner
  have laid := laid_placed tokenizer start 0 scanner.drain.lexemes
    (fun _ => Scanner.text_ne_nil_of_mem_drain) (by rw [whole]; exact oneLine)
  rw [whole, Nat.zero_add] at laid
  exact laid

/-- So are the lines behind the first, each behind its line end, from whatever state. -/
theorem laid_linesFrom (tokenizer : QueryTokenizer) (number offset : Nat) (state : State)
    (others : List (LineEnd × List Char)) (oneLine : ∀ line ∈ others.map Prod.snd, IsOneLine line) :
    Laid offset (others.flatMap fun (lineEnd, line) => lineEnd.chars ++ line)
      ((numberLines number (linesFrom offset others)
        (tokenizeLines tokenizer state ((linesFrom offset others).map Line.text))).flatMap
        DocumentLine.placed) := by
  induction others generalizing number offset state with
  | nil => exact .nil _
  | cons other rest ih =>
    obtain ⟨lineEnd, line⟩ := other
    obtain ⟨first, others⟩ := List.forall_mem_cons.mp oneLine
    rw [List.flatMap_cons, List.append_assoc]
    refine .lineEnd lineEnd (Laid.append ?_ ?_)
    · exact laid_tokenizeLine tokenizer state _ first
    · exact ih (number + 1) _ _ others

theorem laid_tokenizeDocument (tokenizer : QueryTokenizer) (text : String) :
    Laid 0 text.toList ((tokenizeDocument tokenizer text).flatMap DocumentLine.placed) := by
  obtain ⟨first, others⟩ := List.forall_mem_cons.mp (isOneLine_of_mem_lines text.toList)
  have head := laid_tokenizeLine tokenizer .start 0 first
  have tail := laid_linesFrom tokenizer 1 (0 + byteLength (Segments.ofText text.toList).first)
    (tokenizeLine tokenizer .start (String.ofList (Segments.ofText text.toList).first)).endState
    (Segments.ofText text.toList).others others
  have laid := head.append tail
  rw [Nat.zero_add, ← Segments.toText, Segments.toText_ofText] at laid
  exact laid

/-- Lines are numbered one after the other, however many of them there are. -/
theorem map_number_numberLines (number : Nat) (lines : List Line) (tokenized : List TokenizedLine) :
    (numberLines number lines tokenized).map DocumentLine.number =
      List.range' number (numberLines number lines tokenized).length := by
  fun_induction numberLines number lines tokenized with
  | case1 number line lines tokenized rest ih =>
    rw [List.map_cons, List.length_cons, List.range'_succ, ih]
  | case2 => rfl

/-- Tokenizing a document numbers its lines from zero and covers it up to its line ends. -/
theorem tokenizeDocument_covers (tokenizer : QueryTokenizer) (text : String) :
    CoversDocument text (tokenizeDocument tokenizer text) := by
  let lines := tokenizeDocument tokenizer text
  have laid : Laid 0 text.toList (lines.flatMap DocumentLine.placed) :=
    laid_tokenizeDocument tokenizer text
  have spans : (lines.flatMap DocumentLine.placed).map Token.span = documentSpans lines :=
    map_span_placed lines
  have pieces : ∀ token ∈ lines.flatMap DocumentLine.placed, IsPiece text token :=
    laid.isPiece [] rfl
  exact {
    numbered := by
      rw [List.range_eq_range']
      exact map_number_numberLines 0 _ _
    nonempty := by
      rw [← spans]
      intro span member
      obtain ⟨token, present, rfl⟩ := List.mem_map.mp member
      exact (pieces token present).nonempty
    ordered := by
      rw [← spans]
      exact laid.ordered
    pieces := by
      intro line listed
      apply List.forall₂_map_right_iff.mpr
      apply List.forall₂_same.mpr
      intro token present
      exact pieces _ (List.mem_flatMap_of_mem listed (List.mem_map_of_mem present))
    uncovered := by
      intro offset
      rw [← spans, utf8ByteSize_eq_byteLength, ← laid.uncovered offset, Nat.zero_add] }

/-- The empty line in the middle closes the literal that the first line leaves open. -/
example :
    let tokenizer : QueryTokenizer := ⟨false, ⟨.empty, .empty, .empty⟩⟩
    documentSpans (tokenizeDocument tokenizer "'é\\\r\n\r7") =
      [⟨0, 1⟩, ⟨1, 3⟩, ⟨3, 4⟩, ⟨7, 8⟩] := by
  decide +kernel

end QueryHighlight
