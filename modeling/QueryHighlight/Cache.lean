import QueryHighlight.Document

/-!
Highlighting that keeps up with an editor. The cache remembers for each line the state it was
tokenized from and the state it ended in. After an edit the new lines are tokenized, and then the
lines behind them for as long as the state that reaches a line differs from the one it was
tokenized from; from the first line where they agree on, everything is still right.
-/

namespace QueryHighlight
open Scan

structure CachedLine where
  text : String
  startState : State
  endState : State
  highlights : List Highlight
  deriving DecidableEq, Repr

/-- Lines of a document, from `first` to the one before `stop`. -/
structure LineRange where
  first : Nat
  stop : Nat
  deriving DecidableEq, Repr

/-- A document with its highlights. -/
structure HighlightCache (τ : Type) where
  tokenizer : τ
  lines : List CachedLine := []

namespace CachedLine

/-- Tokenizes a line from a state. -/
def fresh {τ : Type} [LineTokenizer τ] (tokenizer : τ) (state : State) (text : String) :
    CachedLine :=
  let tokenized := tokenizeLine tokenizer state text
  ⟨text, state, tokenized.endState, tokenized.tokens.map Token.highlight⟩

/-- Tokenizes consecutive lines. -/
def freshLines {τ : Type} [LineTokenizer τ] (tokenizer : τ) : State → List String → List CachedLine
  | _, [] => []
  | state, text :: rest =>
    let line := fresh tokenizer state text
    line :: freshLines tokenizer line.endState rest

/-- The state that a list of lines leaves behind when it was entered in the given state. -/
def exitState (entry : State) (lines : List CachedLine) : State :=
  (lines.getLast?.map CachedLine.endState).getD entry

/-- The lines that have to be tokenized again because another state reaches them now, already
tokenized, and the lines from the first on that still holds. -/
def settle {τ : Type} [LineTokenizer τ] (tokenizer : τ) :
    State → List CachedLine → List CachedLine × List CachedLine
  | _, [] => ([], [])
  | state, line :: rest =>
    if line.startState = state then ([], line :: rest)
    else
      let again := fresh tokenizer state line.text
      let (redone, kept) := settle tokenizer again.endState rest
      (again :: redone, kept)

end CachedLine

namespace HighlightCache
open CachedLine

variable {τ : Type} [LineTokenizer τ]

/-- Replaces `removed` lines from `start` on, as far as the document has them, and tells which
lines of the edited document have been tokenized. -/
def replaceLines (cache : HighlightCache τ) (start removed : Nat) (inserted : List String) :
    HighlightCache τ × LineRange :=
  let first := min start cache.lines.length
  let before := cache.lines.take first
  let edited := before ++ freshLines cache.tokenizer (exitState .start before) inserted
  let (redone, kept) :=
    settle cache.tokenizer (exitState .start edited) (cache.lines.drop (first + removed))
  ({ cache with lines := edited ++ redone ++ kept },
    ⟨first, first + inserted.length + redone.length⟩)

/-- Replaces the whole document. -/
def setText (cache : HighlightCache τ) (text : String) : HighlightCache τ :=
  (cache.replaceLines 0 cache.lines.length ((Text.splitLines text).map Text.Line.text)).1

def ofText (tokenizer : τ) (text : String) : HighlightCache τ :=
  setText { tokenizer := tokenizer } text

def lineCount (cache : HighlightCache τ) : Nat := cache.lines.length

def isEmpty (cache : HighlightCache τ) : Bool := cache.lines.isEmpty

def lineText? (cache : HighlightCache τ) (index : Nat) : Option String :=
  cache.lines[index]?.map CachedLine.text

def highlights? (cache : HighlightCache τ) (index : Nat) : Option (List Highlight) :=
  cache.lines[index]?.map CachedLine.highlights

def endState? (cache : HighlightCache τ) (index : Nat) : Option State :=
  cache.lines[index]?.map CachedLine.endState

/-- The text of the document, its lines joined by line feeds. -/
def text (cache : HighlightCache τ) : String :=
  String.intercalate "\n" (cache.lines.map CachedLine.text)

end HighlightCache

end QueryHighlight
