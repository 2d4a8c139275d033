import QueryHighlight.Proofs.Scan.Exchange

/-!
Characters that the scanner treats alike. The two quotes may trade places everywhere in a line: all
rules that know one of them know the other. A NUL may give its place to another control character:
no rule takes it for the end of the line.
-/

namespace QueryHighlight.Scan
open Text

def Quote.other : Quote → Quote
  | .double => .single
  | .single => .double

/-- Each quote for the other one, and every other character for itself. -/
def swapQuote (c : Char) : Char :=
  match Quote.ofChar? c with
  | some quote => quote.other.char
  | none => c

/-- A literal in the other quotes. -/
def State.swapQuotes : State → State
  | .start => .start
  | .string quote => .string quote.other

def quoteSwap : Exchange where
  char := swapQuote
  quote := Quote.other
  lookalike c := by
    unfold swapQuote
    cases known : Quote.ofChar? c with
    | none => exact .refl c
    | some quote =>
      rw [Quote.ofChar?_eq_some.mp known]
      cases quote <;> exact ⟨by decide, by decide, by decide, by decide⟩
  ofChar?_char c := by
    unfold swapQuote
    cases known : Quote.ofChar? c with
    | none => exact known
    | some quote => cases quote <;> rfl
  quote_injective first second same := by
    cases first <;> cases second <;> first | rfl | cases same

/-- The two quotes are treated alike: where they trade places in a line, and in the state that the
line starts in, the tags and the lengths stay as they are, and a literal that the line leaves open
is one in the other quotes. -/
theorem scanLine_swapQuotes (comments : Bool) (entry : State) (line : String) :
    let scanned := scanLine comments entry line
    let swapped := scanLine comments entry.swapQuotes (line.map swapQuote)
    swapped.outline = scanned.outline ∧ swapped.endState = scanned.endState.swapQuotes := by
  intro scanned swapped
  have state_eq (state : State) : quoteSwap.state state = state.swapQuotes := by
    cases state <;> rfl
  have swapped_eq : swapped = quoteSwap.scannedLine scanned := by
    rw [← quoteSwap.scanLine_map, state_eq]
    rfl
  rw [swapped_eq]
  exact ⟨quoteSwap.outline_scannedLine scanned, state_eq scanned.endState⟩

/-- A literal that holds the other quote, an escaped one and one that closes it. -/
example : scanLine false (.string .single) "a\"\\'b'" =
    quoteSwap.scannedLine (scanLine false (.string .double) "a'\\\"b\"") := by
  decide +kernel

/-- The character U+0001 for each U+0000. -/
def maskNull (c : Char) : Char := if c = '\x00' then '\x01' else c

def nullMask : Exchange where
  char := maskNull
  quote := id
  lookalike c := by
    unfold maskNull
    split
    next isNull =>
      rw [isNull]
      exact ⟨by decide, by decide, by decide, by decide⟩
    next => exact .refl c
  ofChar?_char c := by
    unfold maskNull
    split
    next isNull =>
      rw [isNull]
      rfl
    next => exact Option.map_id_apply.symm
  quote_injective _ _ same := same

/-- A NUL inside a line is a character like U+0001: where the one stands for the other, the scan
has the same tags and lengths and ends in the same state. -/
theorem scanLine_maskNull (comments : Bool) (entry : State) (line : String) :
    let scanned := scanLine comments entry line
    let masked := scanLine comments entry (line.map maskNull)
    masked.outline = scanned.outline ∧ masked.endState = scanned.endState := by
  intro scanned masked
  have state_eq (state : State) : nullMask.state state = state := by
    cases state <;> rfl
  have masked_eq : masked = nullMask.scannedLine scanned := by
    rw [← nullMask.scanLine_map, state_eq]
    rfl
  rw [masked_eq]
  exact ⟨nullMask.outline_scannedLine scanned, state_eq scanned.endState⟩

/-- A NUL is enough for the quote before it to open a literal, and is content there. -/
example : scanLine false .start "i'\x00" =
    ⟨[⟨.stringOpen, ['i', '\'']⟩, ⟨.stringContent, ['\x00']⟩], .start⟩ := by
  decide +kernel

end QueryHighlight.Scan
