/-!
Magnitudes of binary floating-point numbers with 53 significant bits, in exact arithmetic. Every
operation works on the quotient that it denotes and rounds once, to the nearest magnitude and from
halfway to the even one.
-/

namespace QueryHighlight.Floating

/-- The magnitude `significand * 2 ^ exponent`. -/
structure Binary where
  significand : Nat
  exponent : Int
  deriving DecidableEq, Repr

/-- A quotient rounded to the nearest whole number, from halfway to the even one. -/
def roundDiv (numerator denominator : Nat) : Nat :=
  let quotient := numerator / denominator
  let twice := 2 * (numerator % denominator)
  if twice < denominator then quotient
  else if denominator < twice then quotient + 1
  else quotient + quotient % 2

namespace Binary

/-- Exponent of the smallest magnitudes, whose significands may have fewer bits. -/
def leastExponent : Int := -1074

/-- Exponent beyond which a magnitude is too large to be written. -/
def greatestExponent : Int := 971

def zero : Binary := ⟨0, leastExponent⟩

/-- A quotient divided by a power of two, as a numerator and a denominator. -/
def unscaled (numerator denominator : Nat) (exponent : Int) : Nat × Nat :=
  (numerator * Nat.pow 2 (-exponent).toNat, denominator * Nat.pow 2 exponent.toNat)

/-- The exponent at which a quotient has 53 bits before the point. -/
def fittingExponent (numerator denominator : Nat) : Int :=
  let guess : Int := (numerator.log2 : Int) - denominator.log2 - 52
  let (num, den) := unscaled numerator denominator guess
  max leastExponent (if num / den < Nat.pow 2 52 then guess - 1 else guess)

/-- The magnitude nearest to a quotient, unless that is too large. -/
def ofRatio? (numerator denominator : Nat) : Option Binary :=
  if numerator = 0 then some zero
  else
    let exponent := fittingExponent numerator denominator
    let (num, den) := unscaled numerator denominator exponent
    let rounded := roundDiv num den
    let magnitude : Binary :=
      if rounded < Nat.pow 2 53 then ⟨rounded, exponent⟩ else ⟨Nat.pow 2 52, exponent + 1⟩
    if magnitude.exponent ≤ greatestExponent then some magnitude else none

/-- The quotient of two magnitudes, exactly, as a numerator and a denominator. -/
def ratio (first second : Binary) : Nat × Nat :=
  let exponent := first.exponent - second.exponent
  (first.significand * Nat.pow 2 exponent.toNat, second.significand * Nat.pow 2 (-exponent).toNat)

def mul? (first second : Binary) : Option Binary :=
  let (numerator, denominator) := ratio first ⟨1, -second.exponent⟩
  ofRatio? (numerator * second.significand) denominator

def div? (first second : Binary) : Option Binary :=
  let (numerator, denominator) := ratio first second
  ofRatio? numerator denominator

/-- The largest power of ten that does not overflow. -/
def greatestPower : Nat := 308

def powerOfTen (power : Nat) : Binary := (ofRatio? (Nat.pow 10 power) 1).getD zero

/-- A magnitude times a power of ten, the power rounded by itself before it is applied. Powers
below the least reciprocal are applied in steps, until nothing is left. -/
def scale? (magnitude : Binary) (power : Int) : Option Binary :=
  if power.natAbs ≤ greatestPower then
    if 0 ≤ power then magnitude.mul? (powerOfTen power.natAbs)
    else magnitude.div? (powerOfTen power.natAbs)
  else if magnitude.significand = 0 then some magnitude
  else if 0 ≤ power then none
  else (magnitude.div? (powerOfTen greatestPower)).bind fun smaller =>
    smaller.scale? (power + greatestPower)
termination_by power.natAbs
decreasing_by
  simp only [greatestPower] at *
  omega

end Binary

end QueryHighlight.Floating
