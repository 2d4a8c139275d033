import QueryHighlight.Json.Lexeme

/-!
Where problems with a text are placed. One that is about the end of the text is placed there:
nothing that is read character by character is called unfinished while something is left. The problem
of a broken symbol is kept for the reader of the lexemes, so it is said of the lexemes too.
-/

namespace QueryHighlight.Json
open Text

/-- If the problem is that the text ends, then nothing is left of the text. -/
def Problem.IsPlaced (problem : Problem) : Prop :=
  problem.cause.category = .eof → problem.left = 0

/-- The reading gives a value as it is wanted, or fails with a problem that is well placed. -/
def Gives {α : Type} (wanted : α → Prop) : Except Problem α → Prop
  | .ok value => wanted value
  | .error problem => problem.IsPlaced

/-- The problem of a broken symbol is well placed. -/
def Symbol.IsPlaced : Symbol → Prop
  | .broken problem | .brokenString problem => problem.IsPlaced
  | _ => True

section

variable {α β : Type} {wanted : α → Prop} {further : β → Prop} {read : Except Problem α}

theorem Problem.isPlaced_end (cause : Cause) : (⟨cause, 0⟩ : Problem).IsPlaced := fun _ => rfl

theorem Problem.isPlaced_inside {cause : Cause} {left : Nat} (inside : cause.category ≠ .eof) :
    (⟨cause, left⟩ : Problem).IsPlaced := fun early => absurd early inside

theorem Gives.bind {next : α → Except Problem β} (here : Gives wanted read)
    (there : ∀ value, wanted value → Gives further (next value)) :
    Gives further (read >>= next) := by
  cases read with
  | error problem => exact here
  | ok value => exact there value here

theorem Gives.map {change : α → β} (here : Gives wanted read)
    (there : ∀ value, wanted value → further (change value)) : Gives further (read.map change) := by
  cases read with
  | error problem => exact here
  | ok value => exact there value here

end

/-- Any value will do. -/
abbrev FailsPlaced {α : Type} (read : Except Problem α) : Prop := Gives (fun _ => True) read

theorem digitsAt_failsPlaced (text : List Char) : FailsPlaced (digitsAt text) := by
  unfold digitsAt
  split
  · exact Problem.isPlaced_end _
  · exact Problem.isPlaced_inside (by decide)
  · trivial

theorem wholeDigits_failsPlaced (text : List Char) : FailsPlaced (wholeDigits text) := by
  refine (digitsAt_failsPlaced text).bind fun digits _ => ?_
  dsimp only
  split
  · exact Problem.isPlaced_inside (by decide)
  · trivial

theorem fractionDigits_failsPlaced (text : List Char) : FailsPlaced (fractionDigits text) := by
  unfold fractionDigits
  split
  · exact (digitsAt_failsPlaced _).bind fun _ _ => trivial
  · trivial

theorem exponentDigits_failsPlaced (text : List Char) : FailsPlaced (exponentDigits text) := by
  unfold exponentDigits
  split
  · trivial
  · split
    · exact (digitsAt_failsPlaced _).bind fun _ _ => trivial
    · trivial

theorem scaled_failsPlaced (negative : Bool) (significand : Nat) (power : Int) (left : Nat) :
    FailsPlaced (scaled negative significand power left) := by
  unfold scaled
  split
  · trivial
  · exact Problem.isPlaced_inside (by decide)

theorem ofParts_failsPlaced (negative : Bool) (whole : List Char) (fraction : Option (List Char))
    (exponent : Option (Bool × List Char)) (left : Nat) :
    FailsPlaced (ofParts negative whole fraction exponent left) := by
  unfold ofParts
  dsimp only
  split
  · split
    · trivial
    · exact scaled_failsPlaced ..
  · split
    · split
      · exact Problem.isPlaced_inside (by decide)
      · trivial
    · exact scaled_failsPlaced ..

theorem number_failsPlaced (negative : Bool) (text : List Char) :
    FailsPlaced (number negative text) :=
  (wholeDigits_failsPlaced text).bind fun _ _ => (fractionDigits_failsPlaced _).bind fun _ _ =>
    (exponentDigits_failsPlaced _).bind fun _ _ => (ofParts_failsPlaced ..).bind fun _ _ => trivial

theorem finishWord_failsPlaced (letters text : List Char) :
    FailsPlaced (finishWord letters text) := by
  fun_induction finishWord letters text with
  | case1 => trivial
  | case2 => exact Problem.isPlaced_end _
  | case3 letters c rest ih => exact ih
  | case4 => exact Problem.isPlaced_inside (by decide)

theorem hexQuad_failsPlaced (text : List Char) : FailsPlaced (hexQuad text) := by
  unfold hexQuad
  split
  · split
    · trivial
    · exact Problem.isPlaced_inside (by decide)
  · split
    · exact Problem.isPlaced_inside (by decide)
    · exact Problem.isPlaced_end _

theorem secondHalf_failsPlaced (high : Nat) (text : List Char) :
    FailsPlaced (secondHalf high text) := by
  unfold secondHalf
  split
  · exact Problem.isPlaced_end _
  · split
    · exact Problem.isPlaced_inside (by decide)
    · split
      · exact Problem.isPlaced_end _
      · split
        · exact Problem.isPlaced_inside (by decide)
        · refine (hexQuad_failsPlaced _).bind fun pair _ => ?_
          dsimp only
          split
          · trivial
          · exact Problem.isPlaced_inside (by decide)

theorem unicodeEscape_failsPlaced (text : List Char) : FailsPlaced (unicodeEscape text) := by
  refine (hexQuad_failsPlaced text).bind fun pair _ => ?_
  dsimp only
  split
  · exact Problem.isPlaced_inside (by decide)
  · split
    · exact secondHalf_failsPlaced ..
    · trivial

theorem escape_failsPlaced (text : List Char) : FailsPlaced (escape text) := by
  unfold escape
  split
  · exact Problem.isPlaced_end _
  · split
    · exact unicodeEscape_failsPlaced _
    · split
      · trivial
      · exact Problem.isPlaced_inside (by decide)

theorem stringBody_failsPlaced (text : List Char) : FailsPlaced (stringBody text) := by
  fun_induction stringBody text with
  | case1 => exact Problem.isPlaced_end _
  | case2 => trivial
  | case3 rest problem failed _ =>
    have placed := escape_failsPlaced rest
    rwa [failed] at placed
  | case4 rest value after _ _ ih => exact ih.map fun _ _ => trivial
  | case5 => exact Problem.isPlaced_inside (by decide)
  | case6 c rest _ _ _ ih => exact ih.map fun _ _ => trivial

theorem isPlaced_of_mark? {c : Char} {found : Symbol} (known : mark? c = some found) :
    found.IsPlaced := by
  unfold mark? at known
  repeat' split at known
  all_goals cases known
  all_goals trivial

theorem isPlaced_of_word? {c : Char} {found : Symbol} {letters : List Char}
    (known : word? c = some (found, letters)) : found.IsPlaced := by
  unfold word? at known
  repeat' split at known
  all_goals cases known
  all_goals trivial

theorem symbol_gives (c : Char) (rest : List Char) :
    Gives (fun result => result.1.IsPlaced) (symbol c rest) := by
  unfold symbol
  split
  next mark _ known => exact isPlaced_of_mark? known
  next word letters known =>
    exact (finishWord_failsPlaced ..).map fun _ _ => isPlaced_of_word? known
  next =>
    split
    · exact (stringBody_failsPlaced _).map fun _ _ => trivial
    · split
      · exact (number_failsPlaced ..).map fun _ _ => trivial
      · split
        · exact (number_failsPlaced ..).map fun _ _ => trivial
        · trivial

theorem lexemes_isPlaced (text : List Char) : ∀ lexeme ∈ lexemes text, lexeme.symbol.IsPlaced := by
  fun_induction lexemes text with
  | case1 => exact fun lexeme member => absurd member List.not_mem_nil
  | case2 c rest _ ih => exact ih
  | case3 c rest _ before problem failed =>
    have placed := symbol_gives c rest
    rw [failed] at placed
    intro lexeme only
    obtain rfl := List.mem_singleton.mp only
    dsimp only
    split <;> exact placed
  | case4 c rest _ before found behind taken ih =>
    have placed := symbol_gives c rest
    rw [taken] at placed
    exact List.forall_mem_cons.mpr ⟨placed, ih⟩

end QueryHighlight.Json
