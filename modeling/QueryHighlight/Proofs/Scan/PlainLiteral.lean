import QueryHighlight.Proofs.Scan.PairedText
import QueryHighlight.Proofs.Scan.RuleTable

/-!
String literals read one character at a time. The plain automaton asks at each place for an escape,
for a backslash that ends the line and for the quote, in this order, and takes one character as
content where there is none of them; content that stands together is one piece. The scanner takes a
run of content at once and tests its rules in an order of its own, and reads the same literals.
-/

namespace QueryHighlight.Scan
open Text

/-- `[0-9A-Fa-f]{count}` -/
def hexDigits (count : Nat) : List (List (Char × Char)) :=
  List.replicate count [('0', '9'), ('A', 'F'), ('a', 'f')]

/-- `[\\abfnrtv'"]` -/
def simpleEscapes : List (Char × Char) :=
  [('\\', '\\'), ('a', 'a'), ('b', 'b'), ('f', 'f'), ('n', 'n'), ('r', 'r'), ('t', 't'),
    ('v', 'v'), ('\'', '\''), ('"', '"')]

/-- What makes an escape behind a backslash: a class for each character, as ranges. -/
def escapeShapes : List (List (List (Char × Char))) :=
  [[('x', 'x')] :: hexDigits 2,
    List.replicate 3 [('0', '7')],
    [simpleEscapes],
    [('U', 'U')] :: hexDigits 8,
    [('u', 'u')] :: hexDigits 4]

/-- The text starts with one character of each class. -/
def fitsShape : List (List (Char × Char)) → List Char → Bool
  | [], _ => true
  | _ :: _, [] => false
  | ranges :: shape, c :: rest => inClass ranges c && fitsShape shape rest

/-- Length of the escape at the head of a text. -/
def plainEscape? : List Char → Option Nat
  | [] => none
  | c :: rest =>
    if c = '\\' then
      (escapeShapes.find? fun shape => fitsShape shape rest).map fun shape => shape.length + 1
    else none

/-- What the plain automaton does at one place. -/
def plainMatch (quote : Quote) (rest : List Char) : Match :=
  match plainEscape? rest with
  | some size => { tag := .stringEscape, size, state := .string quote }
  | none =>
    if rest = ['\\'] then { tag := .stringContinuation, size := 1, state := .string quote }
    else if rest.head? = some quote.char then { tag := .stringClose, size := 1, state := .start }
    else { tag := .stringContent, size := 1, state := .string quote }

/-- A literal that was read to its end or to the end of the line: its pieces, the state behind
them, and what is left of the line. -/
structure ReadLiteral where
  pieces : List Lexeme
  state : State
  rest : List Char
  deriving DecidableEq, Repr

/-- A further piece in front of a literal that was read. -/
def ReadLiteral.behind (read : ReadLiteral) (piece : Lexeme) : ReadLiteral :=
  { read with pieces := piece :: read.pieces }

/-- The run of the automaton, each character of content a piece of its own. At the end of the line
the literal is closed, unless a continuation came before. -/
def plainPieces (quote : Quote) : List Char → ReadLiteral
  | [] => ⟨[], .start, []⟩
  | c :: rest =>
    let found := plainMatch quote (c :: rest)
    let piece : Lexeme := ⟨found.tag, c :: rest.take (found.size - 1)⟩
    let left := rest.drop (found.size - 1)
    if found.tag = .stringClose ∨ found.tag = .stringContinuation then ⟨[piece], found.state, left⟩
    else (plainPieces quote left).behind piece
termination_by text => text.length
decreasing_by
  rw [List.length_drop, List.length_cons]
  omega

/-- A piece in front of others. Content becomes one with content that follows it. -/
def Lexeme.joinedTo (first : Lexeme) : List Lexeme → List Lexeme
  | [] => [first]
  | second :: others =>
    if first.tag = .stringContent ∧ second.tag = .stringContent then
      ⟨.stringContent, first.text ++ second.text⟩ :: others
    else first :: second :: others

/-- Makes one piece of each run of content. -/
def joinContent (pieces : List Lexeme) : List Lexeme := pieces.foldr Lexeme.joinedTo []

/-- The literal as the plain automaton reads it. -/
def plainLiteral (quote : Quote) (text : List Char) : ReadLiteral :=
  { plainPieces quote text with pieces := joinContent (plainPieces quote text).pieces }

namespace Scanner

/-- A scanner that is started inside a literal. -/
def inLiteral (comments : Bool) (quote : Quote) (rest : List Char) : Scanner :=
  { comments, state := .string quote, rest }

/-- What a scanner emits up to the first closer, or else up to the end of the line. -/
def readLiteral (scanner : Scanner) : ReadLiteral :=
  if scanner.rest = [] then ⟨[], scanner.next.2.state, []⟩
  else if scanner.next.1.tag = .stringClose then
    ⟨[scanner.next.1], scanner.next.2.state, scanner.next.2.rest⟩
  else scanner.next.2.readLiteral.behind scanner.next.1
termination_by scanner.rest.length
decreasing_by exact length_next_lt ‹_›

end Scanner

variable {c : Char} {rest : List Char}

theorem inClass_octalDigit : inClass [('0', '7')] = isOctalDigit := by
  funext c
  rw [inClass_cons, inClass_nil, Bool.or_false]
  rfl

theorem inClass_simpleEscapes : inClass simpleEscapes = isSimpleEscape := by
  funext c
  simp only [simpleEscapes, inClass_cons, inClass_nil, between_self, isSimpleEscape, Bool.or_false,
    Bool.or_assoc]

theorem fitsShape_only (only : Char) (shape : List (List (Char × Char))) :
    fitsShape ([(only, only)] :: shape) (c :: rest) = (c == only && fitsShape shape rest) := by
  rw [fitsShape, inClass_cons, inClass_nil, Bool.or_false, between_self]

theorem fitsShape_replicate (ranges : List (Char × Char)) (count : Nat) (rest : List Char) :
    fitsShape (List.replicate count ranges) rest = startsWithRun (inClass ranges) count rest := by
  induction count generalizing rest with
  | zero => rfl
  | succ count ih =>
    cases rest with
    | nil => rfl
    | cons c rest => rw [List.replicate_succ, fitsShape, startsWithRun, ih]

theorem fitsShape_hexDigits (count : Nat) (rest : List Char) :
    fitsShape (hexDigits count) rest = startsWithRun isHexDigit count rest := by
  rw [hexDigits, fitsShape_replicate, inClass_hexDigit]

/-- An escape of two characters does not begin like any other escape. -/
theorem only_of_isSimpleEscape (simple : isSimpleEscape c = true) :
    (c == 'x') = false ∧ isOctalDigit c = false := by
  simp only [isSimpleEscape, Bool.or_eq_true, beq_iff_eq] at simple
  rcases simple with ((((((((rfl | rfl) | rfl) | rfl) | rfl) | rfl) | rfl) | rfl) | rfl) | rfl <;>
    decide

theorem map_find?_cons {α β : Type} (isMember : α → Bool) (value : α → β) (first : α)
    (others : List α) :
    ((first :: others).find? isMember).map value =
      if isMember first = true then some (value first)
      else (others.find? isMember).map value := by
  rw [List.find?_cons]
  cases isMember first <;> rfl

/-- The shapes as the scanner tests for them. -/
theorem plainEscape?_cons (c : Char) (rest : List Char) :
    plainEscape? ('\\' :: c :: rest) =
      if (c == 'x' && startsWithRun isHexDigit 2 rest) = true then some 4
      else if startsWithRun isOctalDigit 3 (c :: rest) = true then some 4
      else if isSimpleEscape c = true then some 2
      else if (c == 'U' && startsWithRun isHexDigit 8 rest) = true then some 10
      else if (c == 'u' && startsWithRun isHexDigit 4 rest) = true then some 6
      else none := by
  have simple : fitsShape [simpleEscapes] (c :: rest) = isSimpleEscape c := by
    rw [fitsShape, inClass_simpleEscapes, fitsShape, Bool.and_true]
  rw [plainEscape?, if_pos rfl, escapeShapes]
  simp only [map_find?_cons, List.find?_nil, Option.map_none, fitsShape_only, fitsShape_hexDigits,
    fitsShape_replicate, inClass_octalDigit, simple]
  rfl

/-- The order in which the shapes are tried makes no difference. -/
theorem plainEscape?_eq (text : List Char) : plainEscape? text = escapeSize? text := by
  match text with
  | [] => rfl
  | [c] =>
    by_cases escapes : c = '\\'
    · rw [escapes]
      rfl
    · rw [plainEscape?, if_neg escapes]
      rfl
  | first :: c :: rest =>
    by_cases escapes : first = '\\'
    · rw [escapes, plainEscape?_cons, escapeSize?, if_neg (Decidable.not_not.mpr rfl)]
      simp only [Bool.and_eq_true, beq_iff_eq]
      by_cases simple : isSimpleEscape c = true
      · obtain ⟨notHex, notOctal⟩ := only_of_isSimpleEscape simple
        rw [if_neg fun hex => ne_of_beq_false notHex hex.1, startsWithRun, notOctal, Bool.false_and,
          if_neg Bool.false_ne_true, if_pos simple, if_pos simple]
      · rw [if_neg simple, if_neg simple]
    · rw [plainEscape?, if_neg escapes, escapeSize?, if_pos escapes]

/-- The automaton and the scanner differ in how much content they take, and in nothing else. -/
theorem plainMatch_eq (quote : Quote) (c : Char) (rest : List Char) :
    plainMatch quote (c :: rest) =
      if isContent quote (c :: rest) = true then
        { tag := .stringContent, size := 1, state := .string quote }
      else stringMatch quote (c :: rest) := by
  have step := stringStep quote (List.cons_ne_nil c rest)
  rw [plainMatch, plainEscape?_eq]
  by_cases inside : isContent quote (c :: rest) = true
  · obtain ⟨notQuote, noEscape, goesOn⟩ := isContent_iff.mp inside
    have notLast : c :: rest ≠ ['\\'] := by
      intro last
      rw [last] at goesOn
      cases goesOn
    have notCloser : (c :: rest).head? ≠ some quote.char :=
      fun closes => notQuote (Option.some.inj closes)
    rw [noEscape, if_pos inside]
    dsimp only
    rw [if_neg notLast, if_neg notCloser]
  · rw [if_neg inside]
    generalize stringMatch quote (c :: rest) = found at step
    cases step with
    | escape found => rw [found]
    | continuation ends =>
      cases ends
      rfl
    | @closer after closes =>
      have noEscape : escapeSize? (c :: rest) = none := by
        rw [closes]
        cases quote <;> cases after <;> rfl
      have notLast : c :: rest ≠ ['\\'] := by
        rw [closes]
        intro last
        cases quote <;> cases last
      have isCloser : (c :: rest).head? = some quote.char := congrArg List.head? closes
      rw [noEscape]
      dsimp only
      rw [if_neg notLast, if_pos isCloser]
    | content inContent => exact absurd inContent inside

end QueryHighlight.Scan
