import QueryHighlight.Proofs.Scan.ReadAlike
import QueryHighlight.Proofs.Scan.Restart

/-!
Exchanges of characters that the scanner goes along with. Where every character is replaced by one
that answers all questions of the rules alike, and the quotes are exchanged among themselves, each
rule claims as much as before, so a whole scan gives the same lexemes with the characters exchanged.
-/

namespace QueryHighlight.Scan
open Text

/-- No rule can tell the two characters but by which quote they are, and they are as wide. -/
structure Lookalike (c d : Char) : Prop where
  interchangeable : Interchangeable c d
  blank : isBlank d = isBlank c
  terminator : isTerminator d = isTerminator c
  width : d.utf8Size = c.utf8Size

theorem Lookalike.refl (c : Char) : Lookalike c c := ⟨.refl c, rfl, rfl, rfl⟩

/-- A replacement of characters by others like them, and of the quotes among them by quotes. -/
structure Exchange where
  char : Char → Char
  quote : Quote → Quote
  lookalike : ∀ c, Lookalike c (char c)
  ofChar?_char : ∀ c, Quote.ofChar? (char c) = (Quote.ofChar? c).map quote
  quote_injective : ∀ ⦃first second⦄, quote first = quote second → first = second

namespace Exchange

def state (exchange : Exchange) : State → State
  | .start => .start
  | .string quote => .string (exchange.quote quote)

def claim (exchange : Exchange) (found : Match) : Match :=
  { found with state := exchange.state found.state }

def lexeme (exchange : Exchange) (lexeme : Lexeme) : Lexeme :=
  ⟨lexeme.tag, lexeme.text.map exchange.char⟩

def scanner (exchange : Exchange) (scanner : Scanner) : Scanner :=
  { scanner with
    state := exchange.state scanner.state
    rest := scanner.rest.map exchange.char }

def scannedLine (exchange : Exchange) (scanned : ScannedLine) : ScannedLine :=
  ⟨scanned.lexemes.map exchange.lexeme, exchange.state scanned.endState⟩

variable (exchange : Exchange)

theorem agree (text : List Char) : Agree text (text.map exchange.char) := by
  induction text with
  | nil => exact .stop silent_nil silent_nil
  | cons c rest ih => exact .step (exchange.lookalike c).interchangeable ih

theorem char_eq_iff {name : Char} (named : name ∈ namedChars) (c : Char) :
    exchange.char c = name ↔ c = name :=
  ((exchange.lookalike c).interchangeable.eq_iff named).symm

theorem char_eq_quote_iff (quote : Quote) (c : Char) :
    exchange.char c = (exchange.quote quote).char ↔ c = quote.char := by
  rw [← Quote.ofChar?_eq_some, ← Quote.ofChar?_eq_some, exchange.ofChar?_char,
    Option.map_eq_some_iff]
  constructor
  · rintro ⟨found, known, same⟩
    rw [known, exchange.quote_injective same]
  · intro known
    exact ⟨quote, known, rfl⟩

theorem isTerminator_comp : isTerminator ∘ exchange.char = isTerminator :=
  funext fun c => (exchange.lookalike c).terminator

theorem isBlank_comp : isBlank ∘ exchange.char = isBlank :=
  funext fun c => (exchange.lookalike c).blank

variable (comments : Bool) (rest : List Char)

theorem commentRule_map :
    commentRule comments (rest.map exchange.char) =
      (commentRule comments rest).map exchange.claim := by
  cases rest with
  | nil => rfl
  | cons c rest =>
    have hash_eq : (exchange.char c == '#') = (c == '#') := by
      rw [Bool.eq_iff_iff, beq_iff_eq, beq_iff_eq]
      exact exchange.char_eq_iff (by decide) c
    rw [List.map_cons, commentRule, commentRule, hash_eq, List.any_map, exchange.isTerminator_comp,
      List.length_map]
    split <;> rfl

theorem openerAt_map (size : Nat) :
    openerAt size (rest.map exchange.char) = (openerAt size rest).map exchange.claim := by
  match rest with
  | [] => rfl
  | [q] => rfl
  | q :: c :: rest =>
    rw [List.map_cons, List.map_cons, openerAt, openerAt, (exchange.lookalike c).terminator,
      exchange.ofChar?_char]
    split
    · rfl
    · cases Quote.ofChar? q <;> rfl

theorem openerRule_map :
    openerRule (rest.map exchange.char) = (openerRule rest).map exchange.claim := by
  cases rest with
  | nil => rfl
  | cons c rest =>
    have letter_iff := exchange.char_eq_iff (show 'i' ∈ namedChars by decide) c
    have bare := exchange.openerAt_map (c :: rest) 1
    rw [List.map_cons] at bare
    rw [List.map_cons, openerRule, openerRule]
    simp only [letter_iff, bare, exchange.openerAt_map rest 2]
    split <;> rfl

theorem numeralRule_map :
    numeralRule (rest.map exchange.char) = (numeralRule rest).map exchange.claim := by
  rw [numeralRule, numeralRule, (exchange.agree rest).numeral?_eq, Option.map_map]
  rfl

theorem nameRule_map :
    nameRule (rest.map exchange.char) = (nameRule rest).map exchange.claim := by
  rw [nameRule, nameRule, (exchange.agree rest).nameSize?_eq, Option.map_map]
  rfl

theorem bracketRule_map :
    bracketRule (rest.map exchange.char) = (bracketRule rest).map exchange.claim := by
  rw [(exchange.agree rest).bracketRule_eq]
  cases rest with
  | nil => rfl
  | cons c rest =>
    rw [bracketRule]
    repeat' split
    all_goals rfl

theorem blankRule_map :
    blankRule (rest.map exchange.char) = (blankRule rest).map exchange.claim := by
  simp only [blankRule, List.takeWhile_map, exchange.isBlank_comp, List.length_map]
  split <;> rfl

theorem startMatch_map :
    startMatch comments (rest.map exchange.char) = exchange.claim (startMatch comments rest) := by
  have each : ∀ rule ∈ startRules comments,
      rule (rest.map exchange.char) = (rule rest).map exchange.claim := by
    simp only [startRules, List.forall_mem_cons]
    exact ⟨exchange.commentRule_map comments rest, exchange.openerRule_map rest,
      exchange.numeralRule_map rest, exchange.nameRule_map rest, exchange.bracketRule_map rest,
      exchange.blankRule_map rest, List.forall_mem_nil _⟩
  rw [startMatch, startMatch, findSome?_rules_eq_map each]
  cases (startRules comments).findSome? fun rule => rule rest <;> rfl

theorem isContinuation_map : isContinuation (rest.map exchange.char) = isContinuation rest := by
  match rest with
  | [] => rfl
  | [c] =>
    rw [List.map_singleton, isContinuation, isContinuation, Bool.eq_iff_iff, beq_iff_eq, beq_iff_eq]
    exact exchange.char_eq_iff (by decide) c
  | _ :: _ :: _ => rfl

theorem isContent_map (quote : Quote) :
    isContent (exchange.quote quote) (rest.map exchange.char) = isContent quote rest := by
  cases rest with
  | nil => rfl
  | cons c rest =>
    have quote_eq : (exchange.char c != (exchange.quote quote).char) = (c != quote.char) := by
      rw [Bool.eq_iff_iff, bne_iff_ne, bne_iff_ne, ne_eq, ne_eq, exchange.char_eq_quote_iff]
    have escape_eq := (exchange.agree (c :: rest)).escapeSize?_eq
    have continues_eq := exchange.isContinuation_map (c :: rest)
    rw [List.map_cons] at escape_eq continues_eq ⊢
    rw [isContent, isContent, quote_eq, escape_eq, continues_eq]

theorem contentSize_map (quote : Quote) :
    contentSize (exchange.quote quote) (rest.map exchange.char) = contentSize quote rest := by
  induction rest with
  | nil => rfl
  | cons c rest ih =>
    have content_eq := exchange.isContent_map (c :: rest) quote
    rw [List.map_cons] at content_eq ⊢
    rw [contentSize, contentSize, content_eq, ih]

theorem escapeRule_map (quote : Quote) :
    escapeRule (exchange.quote quote) (rest.map exchange.char) =
      (escapeRule quote rest).map exchange.claim := by
  rw [escapeRule, escapeRule, (exchange.agree rest).escapeSize?_eq, Option.map_map]
  rfl

theorem continuationRule_map (quote : Quote) :
    continuationRule (exchange.quote quote) (rest.map exchange.char) =
      (continuationRule quote rest).map exchange.claim := by
  rw [continuationRule, continuationRule, exchange.isContinuation_map]
  split <;> rfl

theorem closerRule_map (quote : Quote) :
    closerRule (exchange.quote quote) (rest.map exchange.char) =
      (closerRule quote rest).map exchange.claim := by
  cases rest with
  | nil => rfl
  | cons c rest =>
    rw [List.map_cons, closerRule, closerRule]
    simp only [exchange.char_eq_quote_iff]
    split <;> rfl

theorem stringMatch_map (quote : Quote) :
    stringMatch (exchange.quote quote) (rest.map exchange.char) =
      exchange.claim (stringMatch quote rest) := by
  simp only [stringMatch, stringRules, List.findSome?_cons, List.findSome?_nil,
    exchange.escapeRule_map, exchange.continuationRule_map, exchange.closerRule_map,
    exchange.contentSize_map]
  cases escapeRule quote rest <;> cases continuationRule quote rest <;>
    cases closerRule quote rest <;> rfl

/-- In every state the rules claim of an exchanged text what they claimed before. -/
theorem matchAt_map (state : State) :
    Scanner.matchAt comments (exchange.state state) (rest.map exchange.char) =
      exchange.claim (Scanner.matchAt comments state rest) := by
  cases state with
  | start => exact exchange.startMatch_map comments rest
  | string quote => exact exchange.stringMatch_map rest quote

/-- One step on an exchanged line. -/
theorem next_scanner (scanner : Scanner) :
    (exchange.scanner scanner).next =
      (exchange.lexeme scanner.next.1, exchange.scanner scanner.next.2) := by
  obtain ⟨comments, state, rest, continued⟩ := scanner
  cases rest with
  | nil =>
    simp only [Exchange.scanner, Scanner.next, List.map_nil]
    cases continued <;> rfl
  | cons c rest =>
    have found_eq := exchange.matchAt_map comments (c :: rest) state
    rw [List.map_cons] at found_eq
    simp only [Exchange.scanner, Scanner.next, List.map_cons, found_eq, Exchange.claim,
      Exchange.lexeme, List.map_take, List.map_drop]

theorem drain_scanner (scanner : Scanner) :
    (exchange.scanner scanner).drain = exchange.scannedLine scanner.drain := by
  have rest_eq_nil (scanner : Scanner) : (exchange.scanner scanner).rest = [] ↔ scanner.rest = [] :=
    List.map_eq_nil_iff
  fun_induction Scanner.drain scanner with
  | case1 scanner ended =>
    rw [Scanner.drain_of_ended ((rest_eq_nil scanner).mpr ended), next_scanner]
    rfl
  | case2 scanner unread tail ih =>
    rw [Scanner.drain_of_unread (mt (rest_eq_nil scanner).mp unread), next_scanner, ih]
    rfl

end Exchange

/-- Tags and lengths of the lexemes of a line. -/
def ScannedLine.outline (scanned : ScannedLine) : List (Tag × Nat) :=
  scanned.lexemes.map fun lexeme => (lexeme.tag, lexeme.length)

namespace Exchange

variable (exchange : Exchange)

theorem byteLength_map (text : List Char) :
    byteLength (text.map exchange.char) = byteLength text := by
  induction text with
  | nil => rfl
  | cons c rest ih =>
    rw [List.map_cons, byteLength_cons, byteLength_cons, (exchange.lookalike c).width, ih]

theorem outline_scannedLine (scanned : ScannedLine) :
    (exchange.scannedLine scanned).outline = scanned.outline := by
  rw [ScannedLine.outline, ScannedLine.outline, scannedLine, List.map_map]
  apply List.map_congr_left
  intro lexeme _
  exact congrArg (lexeme.tag, ·) (exchange.byteLength_map lexeme.text)

/-- A scan of an exchanged line from the exchanged state. -/
theorem scanLine_map (comments : Bool) (entry : State) (line : String) :
    scanLine comments (exchange.state entry) (line.map exchange.char) =
      exchange.scannedLine (scanLine comments entry line) := by
  rw [scanLine, scanLine, String.toList_map]
  exact exchange.drain_scanner { comments, state := entry, rest := line.toList }

end Exchange

end QueryHighlight.Scan
