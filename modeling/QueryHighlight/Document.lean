import QueryHighlight.Text.Lines
import QueryHighlight.Tokenizer

/-!
Whole documents. A document is tokenized line by line from the start state; tokens keep offsets
relative to their line, and the line knows where in the document it starts.
-/

namespace QueryHighlight
open Scan

/-- The tokens of one line of a document; lines are numbered from zero. -/
structure DocumentLine where
  number : Nat
  start : Nat
  tokens : List Token
  endState : State
  deriving DecidableEq, Repr

namespace DocumentLine

/-- The tokens as highlights with offsets in the document. -/
def highlights (line : DocumentLine) : List Highlight :=
  line.tokens.map fun token => ⟨token.kind, token.span.shift line.start⟩

def text (line : DocumentLine) : String := String.join (line.tokens.map Token.text)

end DocumentLine

/-- Lines that were tokenized one after the other, the first of them with the given number. -/
def numberLines : Nat → List Text.Line → List TokenizedLine → List DocumentLine
  | number, line :: lines, tokenized :: rest =>
    ⟨number, line.offset, tokenized.tokens, tokenized.endState⟩ ::
      numberLines (number + 1) lines rest
  | _, _, _ => []

def tokenizeDocument {τ : Type} [LineTokenizer τ] (tokenizer : τ) (text : String) :
    List DocumentLine :=
  let lines := Text.splitLines text
  numberLines 0 lines (tokenizeLines tokenizer .start (lines.map Text.Line.text))

end QueryHighlight
