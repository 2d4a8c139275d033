import QueryHighlight.Highlight
import QueryHighlight.Scan.Scanner
import QueryHighlight.Vocabulary

/-!
From lexemes to tokens. A tokenizer is a function of a state and a line and of nothing else, which
is what allows a document to be tokenized line by line, and again in part after an edit.
-/

namespace QueryHighlight
open Scan

/-- The tokens of a line and the state in which the next line starts. -/
structure TokenizedLine where
  tokens : List Token
  endState : State
  deriving DecidableEq, Repr

/-- Values that know how to tokenize one line from a given state. -/
class LineTokenizer (τ : Type) where
  tokenizeLine : τ → State → String → TokenizedLine

export LineTokenizer (tokenizeLine)

/-- Tokenizes consecutive lines, each from the state in which the one before ended. -/
def tokenizeLines {τ : Type} [LineTokenizer τ] (tokenizer : τ) :
    State → List String → List TokenizedLine
  | _, [] => []
  | state, line :: rest =>
    let tokenized := tokenizeLine tokenizer state line
    tokenized :: tokenizeLines tokenizer tokenized.endState rest

/-- The tokenizer of the query language: a vocabulary, and whether `#` starts a comment. -/
structure QueryTokenizer where
  comments : Bool
  vocabulary : Vocabulary
  deriving DecidableEq

namespace QueryTokenizer

/-- Names are looked up in the vocabulary; every other tag has a kind of its own. -/
def kindOf (tokenizer : QueryTokenizer) (lexeme : Lexeme) : Kind :=
  match lexeme.tag with
  | .identifier => tokenizer.vocabulary.classify (String.ofList lexeme.text)
  | .integer | .float | .hexInteger | .longInteger => .numeric
  | .stringOpen | .stringContent | .stringContinuation | .stringClose => .string
  | .stringEscape => .stringEscape
  | .bracketOpen => .bracketOpen
  | .bracketClose => .bracketClose
  | .whitespace => .whitespace
  | .comment => .comment
  | .invalid | .endOfLine => .error

/-- Places lexemes one behind the other, the first at `offset`. -/
def placed (tokenizer : QueryTokenizer) (offset : Nat) : List Lexeme → List Token
  | [] => []
  | lexeme :: rest =>
    let stop := offset + lexeme.length
    ⟨tokenizer.kindOf lexeme, String.ofList lexeme.text, ⟨offset, stop⟩⟩ ::
      tokenizer.placed stop rest

instance : LineTokenizer QueryTokenizer where
  tokenizeLine tokenizer state line :=
    let scanned := scanLine tokenizer.comments state line
    ⟨tokenizer.placed 0 scanned.lexemes, scanned.endState⟩

end QueryTokenizer

end QueryHighlight
