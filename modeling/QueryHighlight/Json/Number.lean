import QueryHighlight.Json.Problem
import QueryHighlight.Floating.Shortest

/-!
Numbers in a JSON text. A whole number that fits 64 bits is exact; all others are binary
floating-point numbers. Of their digits only as many count as fit a significand below 2 ^ 64, and
the significand is then scaled by a power of ten, so that such a number is rounded twice.
-/

namespace QueryHighlight.Json
open Text Floating

inductive Number where
  | whole (value : Int)
  | real (negative : Bool) (magnitude : Binary)
  deriving DecidableEq, Repr

/-- Floating-point numbers are written positionally from 10 ^ -5 up to below 10 ^ 16. -/
def floatFormat : FloatFormat := ⟨-5, 15⟩

def digitValue (c : Char) : Nat := c.toNat - '0'.toNat

/-- Reads digits onto a number as long as it stays below `limit`, and counts the digits read. -/
def absorb (limit : Nat) : Nat → List Char → Nat × Nat
  | value, [] => (value, 0)
  | value, digit :: rest =>
    let larger := 10 * value + digitValue digit
    if larger < limit then
      let (final, count) := absorb limit larger rest
      (final, count + 1)
    else (value, 0)

/-- The digits at the head of a text, and the rest. -/
def spanDigits (text : List Char) : List Char × List Char :=
  (text.takeWhile Char.isDigit, text.dropWhile Char.isDigit)

/-- Digits where there has to be one. The character that is there instead has been looked at
already, so one byte less is left. -/
def digitsAt (text : List Char) : Except Problem (List Char × List Char) :=
  match spanDigits text with
  | ([], []) => .error ⟨.endOfValue, 0⟩
  | ([], rest) => .error ⟨.invalidNumber, byteLength rest - 1⟩
  | found => .ok found

/-- The digits before the point. A zero in front stands alone. -/
def wholeDigits (text : List Char) : Except Problem (List Char × List Char) := do
  let (digits, rest) ← digitsAt text
  if digits.head? = some '0' ∧ 1 < digits.length then
    throw ⟨.invalidNumber, byteLength text - 2⟩
  return (digits, rest)

/-- The digits behind the point, if there is a point. -/
def fractionDigits : List Char → Except Problem (Option (List Char) × List Char)
  | '.' :: rest => do
    let (digits, rest) ← digitsAt rest
    return (some digits, rest)
  | rest => .ok (none, rest)

/-- The sign and the digits of the exponent, if there is one. -/
def exponentDigits : List Char → Except Problem (Option (Bool × List Char) × List Char)
  | [] => .ok (none, [])
  | mark :: rest =>
    if mark = 'e' ∨ mark = 'E' then do
      let (digits, after) ←
        digitsAt (if rest.head? = some '+' ∨ rest.head? = some '-' then rest.drop 1 else rest)
      return (some (rest.head? == some '-', digits), after)
    else .ok (none, mark :: rest)

/-- A whole number without point and exponent. With a minus sign a zero, and whatever is too
large for 64 bits with a sign, is a floating-point number. -/
def ofSignificand (negative : Bool) (significand : Nat) : Number :=
  if !negative then .whole significand
  else if 0 < significand ∧ significand ≤ Nat.pow 2 63 then .whole (-(significand : Int))
  else .real true ((Binary.ofRatio? significand 1).getD .zero)

/-- A significand times a power of ten, at a place where `left` bytes of the text are left. -/
def scaled (negative : Bool) (significand : Nat) (power : Int) (left : Nat) :
    Except Problem Number :=
  match ((Binary.ofRatio? significand 1).getD .zero).scale? power with
  | some magnitude => .ok (.real negative magnitude)
  | none => .error ⟨.numberOutOfRange, left⟩

/-- The number that the parts of a text stand for. An exponent of more than 31 bits ends the
reading at the digit with which it gets so large, unless the number is a zero all the same. -/
def ofParts (negative : Bool) (whole : List Char) (fraction : Option (List Char))
    (exponent : Option (Bool × List Char)) (left : Nat) : Except Problem Number :=
  let (head, headCount) := absorb (Nat.pow 2 64) 0 whole
  let (significand, tailCount) := absorb (Nat.pow 2 64) head (fraction.getD [])
  let power : Int := (whole.length - headCount : Nat) - (tailCount : Int)
  match exponent with
  | none =>
    if fraction.isNone ∧ headCount = whole.length then .ok (ofSignificand negative significand)
    else scaled negative significand power left
  | some (down, digits) =>
    let (shift, count) := absorb (Nat.pow 2 31) 0 digits
    if count < digits.length then
      if significand ≠ 0 ∧ !down then
        .error ⟨.numberOutOfRange, left + (digits.length - count - 1)⟩
      else .ok (.real negative .zero)
    else scaled negative significand (if down then power - shift else power + shift) left

/-- The number at the head of a text, behind its sign. -/
def number (negative : Bool) (text : List Char) : Except Problem (Number × List Char) := do
  let (whole, rest) ← wholeDigits text
  let (fraction, rest) ← fractionDigits rest
  let (exponent, rest) ← exponentDigits rest
  let value ← ofParts negative whole fraction exponent (byteLength rest)
  return (value, rest)

theorem length_digitsAt {text digits rest : List Char}
    (found : digitsAt text = .ok (digits, rest)) : rest.length < text.length := by
  unfold digitsAt at found
  split at found
  · simp at found
  · simp at found
  next pair _ noDigits =>
    have together := List.takeWhile_append_dropWhile (p := Char.isDigit) (l := text)
    have lengths := congrArg List.length together
    simp only [Except.ok.injEq] at found
    simp only [spanDigits] at noDigits found
    obtain ⟨sameDigits, sameRest⟩ := Prod.mk.inj found
    have positive : 0 < digits.length := by
      refine List.length_pos_iff.mpr fun empty => ?_
      exact noDigits rest (by rw [sameDigits, sameRest, empty])
    rw [sameDigits, sameRest, List.length_append] at lengths
    omega

theorem length_wholeDigits {text digits rest : List Char}
    (found : wholeDigits text = .ok (digits, rest)) : rest.length < text.length := by
  unfold wholeDigits at found
  cases read : digitsAt text with
  | error problem => simp [read, bind, Except.bind] at found
  | ok pair =>
    have shorter := length_digitsAt read
    simp only [read, bind, Except.bind] at found
    split at found
    · simp [throw, throwThe, MonadExceptOf.throw] at found
    · simp only [pure, Except.pure, Except.ok.injEq, Prod.mk.injEq] at found
      simpa only [← found.2] using shorter

theorem length_fractionDigits {text rest : List Char} {digits : Option (List Char)}
    (found : fractionDigits text = .ok (digits, rest)) : rest.length ≤ text.length := by
  unfold fractionDigits at found
  split at found
  next after =>
    cases read : digitsAt after with
    | error problem => simp [read, bind, Except.bind] at found
    | ok pair =>
      have shorter := length_digitsAt read
      simp only [read, bind, Except.bind, pure, Except.pure, Except.ok.injEq,
        Prod.mk.injEq] at found
      simp only [← found.2, List.length_cons]
      omega
  next => simp_all

theorem length_exponentDigits {text rest : List Char} {digits : Option (Bool × List Char)}
    (found : exponentDigits text = .ok (digits, rest)) : rest.length ≤ text.length := by
  unfold exponentDigits at found
  split at found
  next => simp_all
  next mark after =>
    split at found
    · generalize signless : (if after.head? = some '+' ∨ after.head? = some '-' then after.drop 1
        else after) = unsigned at found
      have atMost : unsigned.length ≤ after.length := by
        subst signless
        split <;> simp
      cases read : digitsAt unsigned with
      | error problem => simp [read, bind, Except.bind] at found
      | ok pair =>
        have shorter := length_digitsAt read
        simp only [read, bind, Except.bind, pure, Except.pure, Except.ok.injEq,
          Prod.mk.injEq] at found
        simp only [← found.2, List.length_cons]
        omega
    · simp_all

/-- A number takes one character at least. -/
theorem length_number {text rest : List Char} {negative : Bool} {value : Number}
    (found : number negative text = .ok (value, rest)) : rest.length < text.length := by
  unfold number at found
  cases readWhole : wholeDigits text with
  | error problem => simp [readWhole, bind, Except.bind] at found
  | ok wholePair =>
    obtain ⟨whole, afterWhole⟩ := wholePair
    cases readFraction : fractionDigits afterWhole with
    | error problem => simp [readWhole, readFraction, bind, Except.bind] at found
    | ok fractionPair =>
      obtain ⟨fraction, afterFraction⟩ := fractionPair
      cases readExponent : exponentDigits afterFraction with
      | error problem => simp [readWhole, readFraction, readExponent, bind, Except.bind] at found
      | ok exponentPair =>
        obtain ⟨exponent, afterExponent⟩ := exponentPair
        have first := length_wholeDigits readWhole
        have second := length_fractionDigits readFraction
        have third := length_exponentDigits readExponent
        simp only [readWhole, readFraction, readExponent, bind, Except.bind] at found
        split at found
        · simp at found
        · simp only [pure, Except.pure, Except.ok.injEq, Prod.mk.injEq] at found
          rw [← found.2]
          omega

/-- What a message calls a number. -/
def Number.description : Number → String
  | whole value => "integer " ++ Cause.accented (toString value)
  | real negative magnitude =>
    let sign := if negative then ['-'] else []
    "floating point " ++ Cause.accented (String.ofList (sign ++ floatFormat.text magnitude))

end QueryHighlight.Json
