/-!
Properties of characters that no rule but only a table gives: lists of ranges of code points, both
ends included, in ascending order.
-/

namespace QueryHighlight.Text

abbrev Ranges := List (Nat × Nat)

def Ranges.has (ranges : Ranges) (c : Char) : Bool :=
  ranges.any fun (first, last) => first ≤ c.toNat && c.toNat ≤ last

end QueryHighlight.Text
