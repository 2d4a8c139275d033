import QueryHighlight.Proofs.Scan.Emission
import QueryHighlight.Proofs.Text.Boundary
import QueryHighlight.Tokenizer

/-!
The tokens of a line are the line. Wherever the scanner stands while it reads a line, it stands on
a character boundary and is told to take characters that are there; so tokens are never empty, lie
one behind the other from the first byte to the last, and each is the text at its span.
-/

namespace QueryHighlight
open Scan Text

/-- The tokens lie one behind the other from `start` to `stop`. -/
def Contiguous : Nat → List Token → Nat → Prop
  | start, [], stop => start = stop
  | start, token :: rest, stop => token.span.start = start ∧ Contiguous token.span.stop rest stop

/-- A token is cut out of the line at character boundaries, and has the text between them. -/
structure IsPiece (line : String) (token : Token) : Prop where
  nonempty : token.span.start < token.span.stop
  start_valid : String.Pos.Raw.IsValid line ⟨token.span.start⟩
  stop_valid : String.Pos.Raw.IsValid line ⟨token.span.stop⟩
  text_eq : token.text.toByteArray = line.toByteArray.extract token.span.start token.span.stop

structure Covers (line : String) (tokens : List Token) : Prop where
  contiguous : Contiguous 0 tokens line.utf8ByteSize
  pieces : ∀ token ∈ tokens, IsPiece line token
  joined : String.join (tokens.map Token.text) = line

/-- The scanner stands in the line at `offset`: on a character boundary, with the bytes from there
to the end of the line before it. -/
structure StandsAt (line : String) (scanner : Scanner) (offset : Nat) : Prop where
  valid : String.Pos.Raw.IsValid line ⟨offset⟩
  bounded : offset ≤ line.utf8ByteSize
  unread : (String.ofList scanner.rest).toByteArray =
    line.toByteArray.extract offset line.utf8ByteSize

variable {line : String} {before : List Char} {lexemes : List Lexeme}

theorem contiguous_placed (tokenizer : QueryTokenizer) (offset : Nat) (lexemes : List Lexeme) :
    Contiguous offset (tokenizer.placed offset lexemes)
      (offset + byteLength (Lexeme.texts lexemes)) := by
  induction lexemes generalizing offset with
  | nil => rfl
  | cons lexeme rest ih =>
    have later := ih (offset + lexeme.length)
    rw [Nat.add_assoc, Lexeme.length, ← byteLength_append] at later
    exact ⟨rfl, later⟩

/-- What stands between two cuts of a line is a piece of it. -/
theorem isPiece_of_split (kind : Kind) {piece after : List Char}
    (split : line.toList = before ++ (piece ++ after)) (nonempty : piece ≠ []) :
    IsPiece line
      ⟨kind, String.ofList piece, ⟨byteLength before, byteLength before + byteLength piece⟩⟩ := by
  have regrouped : line.toList = (before ++ piece) ++ after := by
    rw [split, List.append_assoc]
  have stopValid := isValid_of_split regrouped
  rw [byteLength_append] at stopValid
  exact {
    nonempty := Nat.lt_add_of_pos_right (Nat.pos_of_ne_zero (mt byteLength_eq_zero.mp nonempty))
    start_valid := isValid_of_split split
    stop_valid := stopValid
    text_eq := (extract_of_split split).symm }

theorem isPiece_of_mem_placed (tokenizer : QueryTokenizer) {after : List Char}
    (split : line.toList = before ++ (Lexeme.texts lexemes ++ after))
    (nonempty : ∀ lexeme ∈ lexemes, lexeme.text ≠ []) :
    ∀ token ∈ tokenizer.placed (byteLength before) lexemes, IsPiece line token := by
  induction lexemes generalizing before with
  | nil => intro token member; cases member
  | cons lexeme rest ih =>
    have split' : line.toList = before ++ (lexeme.text ++ (Lexeme.texts rest ++ after)) := by
      rw [split, Lexeme.texts, List.flatMap_cons, List.append_assoc]
      rfl
    have regrouped : line.toList = (before ++ lexeme.text) ++ (Lexeme.texts rest ++ after) := by
      rw [split', List.append_assoc]
    intro token member
    rw [QueryTokenizer.placed, Lexeme.length] at member
    rcases List.mem_cons.mp member with rfl | later
    · exact isPiece_of_split _ split' (nonempty lexeme List.mem_cons_self)
    · rw [← byteLength_append] at later
      exact ih regrouped (fun other present => nonempty other (List.mem_cons_of_mem _ present))
        token later

theorem join_map_text_placed (tokenizer : QueryTokenizer) (offset : Nat) (lexemes : List Lexeme) :
    String.join ((tokenizer.placed offset lexemes).map Token.text) =
      String.ofList (Lexeme.texts lexemes) := by
  induction lexemes generalizing offset with
  | nil => rfl
  | cons lexeme rest ih =>
    rw [QueryTokenizer.placed, List.map_cons, String.join_cons, ih, ← String.ofList_append]
    rfl

theorem covers_placed (tokenizer : QueryTokenizer) (lexemes : List Lexeme)
    (whole : Lexeme.texts lexemes = line.toList)
    (nonempty : ∀ lexeme ∈ lexemes, lexeme.text ≠ []) :
    Covers line (tokenizer.placed 0 lexemes) := by
  have contiguous := contiguous_placed tokenizer 0 lexemes
  have split : line.toList = [] ++ (Lexeme.texts lexemes ++ []) := by
    rw [List.nil_append, List.append_nil, whole]
  rw [whole, Nat.zero_add, ← utf8ByteSize_eq_byteLength] at contiguous
  exact {
    contiguous := contiguous
    pieces := isPiece_of_mem_placed tokenizer split nonempty
    joined := by rw [join_map_text_placed, whole, String.ofList_toList] }

theorem standsAt_of_emits {comments : Bool} {state : State} {scanner : Scanner}
    (run : Scanner.Emits { comments, state, rest := line.toList } lexemes scanner) :
    StandsAt line scanner (byteLength (Lexeme.texts lexemes)) := by
  have split : line.toList = Lexeme.texts lexemes ++ scanner.rest := run.texts_append_rest.symm
  have valid := isValid_of_split split
  have size : byteLength (Lexeme.texts lexemes) + byteLength scanner.rest = line.utf8ByteSize := by
    rw [← byteLength_append, ← split, utf8ByteSize_eq_byteLength]
  exact {
    valid := valid
    bounded := valid.le_utf8ByteSize
    unread := by
      rw [← size]
      exact (extract_of_split (split.trans (congrArg _ (List.append_nil _).symm))).symm }

/-- Tokenizing a line comes to its end within as many steps as the line has characters, never
leaves the character boundaries of the line, never takes what is not there, and gives tokens that
are the line. -/
theorem tokenizeLine_covers (tokenizer : QueryTokenizer) (state : State) (line : String) :
    let start : Scanner := { comments := tokenizer.comments, state, rest := line.toList }
    let tokens := (tokenizeLine tokenizer state line).tokens
    Covers line tokens ∧
      (∃ lexemes ended, start.Emits lexemes ended ∧ ended.rest = [] ∧
        tokens = tokenizer.placed 0 lexemes) ∧
      ∀ lexemes scanner, start.Emits lexemes scanner →
        lexemes.length ≤ line.length ∧
          StandsAt line scanner (byteLength (Lexeme.texts lexemes)) ∧
          (scanner.rest ≠ [] →
            Fits (Scanner.matchAt scanner.comments scanner.state scanner.rest).size scanner.rest) := by
  intro start tokens
  refine ⟨?_, ?_, ?_⟩
  · exact covers_placed tokenizer _ (Scanner.flatMap_text_drain start)
      (fun _ => Scanner.text_ne_nil_of_mem_drain)
  · obtain ⟨ended, run, atEnd, -⟩ := Scanner.exists_emits_drain start
    exact ⟨start.drain.lexemes, ended, run, atEnd, rfl⟩
  · intro lexemes scanner run
    refine ⟨?_, standsAt_of_emits run, fun unread => fits_matchAt _ _ unread⟩
    have bound := run.length_add_le
    rw [← String.length_toList]
    exact Nat.le_trans (Nat.le_add_right _ _) bound

end QueryHighlight
