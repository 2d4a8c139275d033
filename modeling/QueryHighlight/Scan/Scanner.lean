import QueryHighlight.Scan.Rule
import QueryHighlight.Text.Width

/-!
The scanner cuts one line into lexemes. It holds the characters not yet read, so a step is blind
to everything before it, and each step takes one character at least, so a line is always read to
its end. Whatever the line contains ends up in exactly one lexeme.
-/

namespace QueryHighlight.Scan
open Text

/-- A tagged piece of a line, with exactly the characters that it stands for. -/
structure Lexeme where
  tag : Tag
  text : List Char
  deriving DecidableEq, Repr

namespace Lexeme

/-- Length in bytes. -/
def length (lexeme : Lexeme) : Nat := byteLength lexeme.text

/-- What a scanner finds behind the last character of a line. -/
def endOfLine : Lexeme := ⟨.endOfLine, []⟩

end Lexeme

/-- A place in a line: the state there and the characters still to come. `continued` holds once
a continuation backslash has been read, which keeps a literal open at the end of the line. -/
structure Scanner where
  comments : Bool
  state : State
  rest : List Char
  continued : Bool := false
  deriving DecidableEq, Repr

/-- A line cut into lexemes, and the state in which the next line starts. -/
structure ScannedLine where
  lexemes : List Lexeme
  endState : State
  deriving DecidableEq, Repr

namespace Scanner

/-- What the rules make of the rest of a line in a given state. -/
def matchAt (comments : Bool) : State → List Char → Match
  | .start, rest => startMatch comments rest
  | .string quote, rest => stringMatch quote rest

/-- The next lexeme and the scanner behind it. At the end of the line the lexeme is empty and a
literal that was not continued is closed. -/
def next (scanner : Scanner) : Lexeme × Scanner :=
  match scanner.rest with
  | [] =>
    let state := if scanner.continued then scanner.state else .start
    (.endOfLine, { scanner with state := state })
  | c :: rest =>
    let found := matchAt scanner.comments scanner.state (c :: rest)
    let further := found.size - 1
    (⟨found.tag, c :: rest.take further⟩,
      { scanner with
        state := found.state
        rest := rest.drop further
        continued := scanner.continued || found.tag == .stringContinuation })

theorem length_next_lt {scanner : Scanner} (unread : scanner.rest ≠ []) :
    scanner.next.2.rest.length < scanner.rest.length := by
  unfold next
  split
  next ended => exact absurd ended unread
  next c rest same =>
    rw [same]
    simp only [List.length_drop, List.length_cons]
    omega

/-- Nothing of a line is lost: a lexeme and what follows it are what was there. -/
theorem text_next_append_rest (scanner : Scanner) :
    scanner.next.1.text ++ scanner.next.2.rest = scanner.rest := by
  unfold next
  split
  next ended => simp [ended, Lexeme.endOfLine]
  next c rest same => simp [same]

/-- All lexemes up to the end of the line. -/
def drain (scanner : Scanner) : ScannedLine :=
  if scanner.rest = [] then ⟨[], scanner.next.2.state⟩
  else
    let tail := scanner.next.2.drain
    ⟨scanner.next.1 :: tail.lexemes, tail.endState⟩
termination_by scanner.rest.length
decreasing_by exact length_next_lt ‹_›

theorem drain_of_ended {scanner : Scanner} (ended : scanner.rest = []) :
    scanner.drain = ⟨[], scanner.next.2.state⟩ := by
  rw [drain, if_pos ended]

theorem drain_of_unread {scanner : Scanner} (unread : scanner.rest ≠ []) :
    scanner.drain =
      ⟨scanner.next.1 :: scanner.next.2.drain.lexemes, scanner.next.2.drain.endState⟩ := by
  rw [drain, if_neg unread]

/-- The lexemes of a line are the line. -/
theorem flatMap_text_drain (scanner : Scanner) :
    scanner.drain.lexemes.flatMap Lexeme.text = scanner.rest := by
  fun_induction drain scanner with
  | case1 scanner ended => simp [ended]
  | case2 scanner unread tail ih => simp only [List.flatMap_cons, tail, ih, text_next_append_rest]

theorem text_next_ne_nil {scanner : Scanner} (unread : scanner.rest ≠ []) :
    scanner.next.1.text ≠ [] := by
  unfold next
  split
  next ended => exact absurd ended unread
  next => simp

theorem text_ne_nil_of_mem_drain {scanner : Scanner} {lexeme : Lexeme}
    (member : lexeme ∈ scanner.drain.lexemes) : lexeme.text ≠ [] := by
  fun_induction drain scanner with
  | case1 => simp at member
  | case2 scanner unread tail ih =>
    rcases List.mem_cons.mp member with same | inTail
    · exact same ▸ text_next_ne_nil unread
    · exact ih inTail

end Scanner

/-- Length in bytes of the longest line whose offsets fit the 32 bits that hosts keep them in. A
longer line is cut there before it is scanned. -/
def maxLineLength : Nat := Nat.pow 2 32 - 1

/-- Cuts a line into lexemes, starting in the given state. The line is one that fits
`maxLineLength`; of a longer one only the bytes up to there are in the buffer that is scanned. -/
def scanLine (comments : Bool) (state : State) (line : String) : ScannedLine :=
  Scanner.drain { comments, state, rest := line.toList }

end QueryHighlight.Scan
