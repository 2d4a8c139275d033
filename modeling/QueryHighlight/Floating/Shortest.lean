import QueryHighlight.Floating.Binary

/-!
The fewest decimal digits that still name a binary magnitude: those of the grid points next to it
on the coarsest decimal grid that has one which rounds back to the magnitude. Of two such points
the nearer is taken, of two equally near the even one.
-/

namespace QueryHighlight.Floating

/-- The number `digits * 10 ^ exponent`. -/
structure Decimal where
  digits : Nat
  exponent : Int
  deriving DecidableEq, Repr

namespace Binary

/-- The magnitude over a power of ten, as a numerator and a denominator. -/
def overTen (magnitude : Binary) (power : Int) : Nat × Nat :=
  (magnitude.significand * Nat.pow 2 magnitude.exponent.toNat * Nat.pow 10 (-power).toNat,
    Nat.pow 2 (-magnitude.exponent).toNat * Nat.pow 10 power.toNat)

/-- The power of ten of the leading decimal digit of a positive magnitude. -/
def leadingPower (magnitude : Binary) : Int :=
  let (numerator, denominator) := magnitude.overTen 0
  if denominator ≤ numerator then (Nat.toDigits 10 (numerator / denominator)).length - 1
  else -(Nat.toDigits 10 ((denominator - 1) / numerator)).length

/-- Decimals closer to the magnitude than to its neighbours read back as the magnitude; of those
halfway between, only if the magnitude has an even significand. All is counted in quarters of the
distance to the next magnitude, and below a power of two the neighbours are twice as close. -/
def readsBack (magnitude : Binary) (decimal : Decimal) : Bool :=
  let quarter := magnitude.exponent - 2
  let value := decimal.digits * Nat.pow 10 decimal.exponent.toNat * Nat.pow 2 (-quarter).toNat
  let unit := Nat.pow 10 (-decimal.exponent).toNat * Nat.pow 2 quarter.toNat
  let middle := 4 * magnitude.significand
  let below :=
    if magnitude.significand = Nat.pow 2 52 ∧ leastExponent < magnitude.exponent then 1 else 2
  let low := (middle - below) * unit
  let high := (middle + 2) * unit
  if magnitude.significand % 2 = 0 then low ≤ value && value ≤ high
  else low < value && value < high

/-- The decimal on the grid of a power of ten that reads back as the magnitude, if there is one. -/
def onGrid? (magnitude : Binary) (power : Int) : Option Decimal :=
  let (numerator, denominator) := magnitude.overTen power
  let lower : Decimal := ⟨numerator / denominator, power⟩
  let upper : Decimal := ⟨numerator / denominator + 1, power⟩
  let nearer : Decimal := ⟨roundDiv numerator denominator, power⟩
  if magnitude.readsBack lower && magnitude.readsBack upper then some nearer
  else if magnitude.readsBack lower then some lower
  else if magnitude.readsBack upper then some upper
  else none

end Binary

/-- The same number without zeros at the end of its digits. -/
def Decimal.stripped (decimal : Decimal) : Decimal :=
  if 0 < decimal.digits ∧ decimal.digits % 10 = 0 then
    Decimal.stripped ⟨decimal.digits / 10, decimal.exponent + 1⟩
  else decimal
termination_by decimal.digits
decreasing_by omega

/-- The shortest decimal for a positive magnitude; seventeen digits suffice for all of them. -/
def Binary.shortest (magnitude : Binary) : Decimal :=
  let leading := magnitude.leadingPower
  let found? := (List.range 17).findSome? fun (further : Nat) =>
    magnitude.onGrid? (leading - further)
  (found?.getD ⟨0, 0⟩).stripped

/-- Which leading powers of ten are written without an exponent. -/
structure FloatFormat where
  leastPositional : Int
  greatestPositional : Int
  deriving DecidableEq, Repr

namespace FloatFormat

/-- Digits with a point behind the one that stands for the units; a point never ends the text. -/
def positional (digits : List Char) (exponent : Int) : List Char :=
  let leading : Int := exponent + digits.length - 1
  if 0 ≤ exponent then digits ++ List.replicate exponent.toNat '0' ++ ['.', '0']
  else if 0 ≤ leading then
    digits.take (leading.toNat + 1) ++ '.' :: digits.drop (leading.toNat + 1)
  else '0' :: '.' :: List.replicate (-leading - 1).toNat '0' ++ digits

/-- A power of ten with its sign, also if it is positive. -/
def signed (power : Int) : List Char :=
  (if 0 ≤ power then '+' else '-') :: Nat.toDigits 10 power.natAbs

/-- One digit before the point and the power of ten behind an `e`. -/
def scientific (digits : List Char) (exponent : Int) : List Char :=
  let leading : Int := exponent + digits.length - 1
  let fraction := digits.drop 1
  digits.take 1 ++ (if fraction.isEmpty then [] else '.' :: fraction) ++
    'e' :: signed leading

def text (format : FloatFormat) (magnitude : Binary) : List Char :=
  if magnitude.significand = 0 then ['0', '.', '0']
  else
    let decimal := magnitude.shortest
    let digits := Nat.toDigits 10 decimal.digits
    let leading : Int := decimal.exponent + digits.length - 1
    if format.leastPositional ≤ leading ∧ leading ≤ format.greatestPositional then
      positional digits decimal.exponent
    else scientific digits decimal.exponent

end FloatFormat

end QueryHighlight.Floating
