/-!
Ranges of byte offsets, from the first offset inside to the first one behind.
-/

namespace QueryHighlight

structure Span where
  start : Nat
  stop : Nat
  deriving DecidableEq, Repr, Inhabited

namespace Span

def length (span : Span) : Nat := span.stop - span.start

def isEmpty (span : Span) : Bool := span.start == span.stop

def contains (span : Span) (offset : Nat) : Bool := span.start ≤ offset && offset < span.stop

/-- The least span that covers both. -/
def merge (first second : Span) : Span :=
  ⟨min first.start second.start, max first.stop second.stop⟩

/-- Both ends moved to the right. -/
def shift (span : Span) (distance : Nat) : Span :=
  ⟨span.start + distance, span.stop + distance⟩

def text (span : Span) : String := toString span.start ++ ".." ++ toString span.stop

end Span

end QueryHighlight
