/-!
What the scanner carries from one line to the next. Only a string literal that ends its line on a
continuation backslash outlives the line, so the state names the quote that such a literal still
waits for, or says that there is none.
-/

namespace QueryHighlight.Scan

/-- The two delimiters of string literals. -/
inductive Quote where
  | double
  | single
  deriving DecidableEq, Repr

def Quote.char : Quote → Char
  | .double => '"'
  | .single => '\''

def Quote.byte : Quote → UInt8
  | .double => 0x22
  | .single => 0x27

def Quote.ofChar? (c : Char) : Option Quote :=
  if c = '"' then some .double else if c = '\'' then some .single else none

theorem Quote.ofChar?_eq_some {c : Char} {quote : Quote} :
    Quote.ofChar? c = some quote ↔ c = quote.char := by
  cases quote <;> by_cases isDouble : c = '"' <;> by_cases isSingle : c = '\'' <;>
    simp_all [Quote.ofChar?, Quote.char]

/-- Where a line starts: between tokens, or inside a string literal. -/
inductive State where
  | start
  | string (quote : Quote)
  deriving DecidableEq, Repr

instance : Inhabited State := ⟨.start⟩

def State.all : List State := [.start, .string .double, .string .single]

/-- The quote that closes the literal which the state is inside of. -/
def State.closingQuote? : State → Option Quote
  | .start => none
  | .string quote => some quote

end QueryHighlight.Scan
