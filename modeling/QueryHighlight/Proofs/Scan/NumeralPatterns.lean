import QueryHighlight.Proofs.Scan.MatchSize
import QueryHighlight.Proofs.Scan.RuleTable

/-!
The patterns of numbers against the lengths that the scanner measures. No run of digits is ever
shortened: what follows one starts with another character, ends the match, or asks for a word
boundary, and none of these is found between two digits.
-/

namespace QueryHighlight.Scan
open Text Pattern

variable {α : Type} {next : Place → Option α}

theorem digit_eq_one : digit = one Char.isDigit := by
  rw [digit, oneOf, inClass_digit]

theorem hexDigit_eq_one : hexDigit = one isHexDigit := by
  rw [hexDigit, oneOf, inClass_hexDigit]

theorem digitCount_eq_runLength (rest : List Char) :
    digitCount rest = runLength Char.isDigit rest := rfl

/-- What stands between an exponent's mark and what follows it. -/
theorem tryThen_signed (commits : Commits Char.isDigit next) (place : Place) :
    (seq (optional (one isSign)) (plus (one Char.isDigit))).tryThen next place =
      let sign := if place.after.head?.any isSign then 1 else 0
      let digits := runLength Char.isDigit (place.after.drop sign)
      if 0 < digits then next (place.skip (sign + digits)) else none := by
  rw [tryThen_seq, tryThen_optional, tryThen_one]
  by_cases signed : place.after.head?.any isSign = true
  · -- Without its sign the number would start with the sign.
    have noDigits : runLength Char.isDigit place.after = 0 := by
      obtain ⟨c, first, isSigned⟩ := (Option.any_eq_true _ _).mp signed
      rw [runLength_eq_zero, first, Option.any_some]
      rcases Bool.or_eq_true_iff.mp isSigned with plus | minus
      · rw [eq_of_beq plus]; rfl
      · rw [eq_of_beq minus]; rfl
    rw [if_pos signed, if_pos signed, tryThen_plus commits.within, tryThen_plus commits.within,
      noDigits, if_neg (Nat.lt_irrefl 0), Option.or_none, Place.skip_skip]
    rfl
  · rw [if_neg signed, if_neg signed, Option.none_or, tryThen_plus commits.within]
    simp only [List.drop_zero, Nat.zero_add]

theorem tryThen_exponent (commits : Commits Char.isDigit next) (place : Place) :
    exponent.tryThen next place =
      (exponentSize? place.after).bind fun size => next (place.skip size) := by
  rw [exponent, digit_eq_one, oneOf, oneOf, inClass_exponentMark, inClass_sign, tryThen_seq,
    tryThen_one]
  cases same : place.after with
  | nil => rfl
  | cons mark rest =>
    rw [List.head?_cons, Option.any_some, exponentSize?]
    by_cases marked : isExponentMark mark = true
    · have behind : (place.skip 1).after = rest := by rw [Place.after_skip, same]; rfl
      rw [if_pos marked, if_pos marked, tryThen_signed commits, behind]
      dsimp only
      rw [digitCount_eq_runLength]
      generalize (if rest.head?.any isSign then 1 else 0) = sign
      by_cases positive : 0 < runLength Char.isDigit (rest.drop sign)
      · rw [if_pos positive, if_pos positive, Option.bind_some, Place.skip_skip, Nat.add_assoc]
      · rw [if_neg positive, if_neg positive, Option.bind_none]
    · rw [if_neg marked, if_neg marked]
      rfl

/-- An exponent does not start inside a run of digits. -/
theorem commits_exponent : Commits Char.isDigit (exponent.tryThen next) := by
  rw [exponent, oneOf, inClass_exponentMark, tryThen_seq]
  apply commits_one
  intro c digit
  rw [isExponentMark, beq_eq_false_of_not_mem rfl digit, beq_eq_false_of_not_mem rfl digit]
  rfl

theorem commits_point : Commits Char.isDigit ((literal '.').tryThen next) :=
  commits_one fun _ digit => beq_eq_false_of_not_mem rfl digit

theorem pointSize?_eq_ite (rest : List Char) :
    pointSize? rest =
      let whole := runLength Char.isDigit rest
      let fraction := runLength Char.isDigit (rest.drop (whole + 1))
      if (rest.drop whole).head?.any (· == '.') then
        if 0 < whole ∨ 0 < fraction then some (whole + 1 + fraction) else none
      else none := by
  simp only [pointSize?, digitCount_eq_runLength]
  rw [← List.drop_drop]
  cases rest.drop (runLength Char.isDigit rest) with
  | nil => rfl
  | cons c after =>
    by_cases point : c = '.'
    · subst point
      rfl
    · rw [List.head?_cons, Option.any_some, if_neg (mt eq_of_beq point)]
      split
      next same => cases same; exact absurd rfl point
      next => rfl

theorem tryThen_pointed (commits : Commits Char.isDigit next) (place : Place) :
    pointed.tryThen next place =
      (pointSize? place.after).bind fun size => next (place.skip size) := by
  -- A match that ends on the point is no better than the one behind the fraction.
  have best := commits (place.skip (runLength Char.isDigit place.after + 1))
  rw [Place.skip_skip, Place.after_skip] at best
  rw [pointed, digit_eq_one, tryThen_either, tryThen_seq, tryThen_seq, tryThen_seq,
    tryThen_star commits_point, tryThen_plus commits_point.within, literal, tryThen_one, tryThen_one,
    Place.after_skip, Place.skip_skip, tryThen_plus commits.within, Place.skip_skip,
    Place.after_skip, pointSize?_eq_ite]
  dsimp only
  generalize runLength Char.isDigit place.after = whole at best ⊢
  generalize runLength Char.isDigit (place.after.drop (whole + 1)) = fraction at best ⊢
  by_cases point : (place.after.drop whole).head?.any (· == '.') = true
  · rw [if_pos point, if_pos point, if_pos point]
    by_cases digits : 0 < fraction
    · rw [if_pos digits, if_pos (show 0 < whole ∨ 0 < fraction from .inr digits), Option.bind_some]
      cases found : next (place.skip (whole + 1 + fraction)) with
      | none => rw [best found, ite_self]; rfl
      | some result => rfl
    · obtain rfl : fraction = 0 := Nat.eq_zero_of_not_pos digits
      rw [if_neg digits, Option.none_or]
      by_cases whole_pos : 0 < whole
      · rw [if_pos whole_pos, if_pos (show 0 < whole ∨ 0 < 0 from .inl whole_pos)]; rfl
      · rw [if_neg whole_pos, if_neg (not_or.mpr ⟨whole_pos, digits⟩)]; rfl
  · rw [if_neg point, if_neg point, if_neg point, ite_self]
    rfl

theorem preferred_float (place : Place) :
    float.preferred place =
      (floatSize? place.after).map fun size => (place.skip size).tagged .float := by
  have commits : Commits Char.isDigit fun ending : Place => some (ending.tagged .float) :=
    commits_of_isSome fun _ => rfl
  have exponent_eq (size : Nat) :
      exponent.tryThen (fun ending => some (ending.tagged .float)) (place.skip size) =
        (withExponent? place.after size).map fun total => (place.skip total).tagged .float := by
    rw [tryThen_exponent commits, Place.after_skip, withExponent?]
    cases exponentSize? (place.after.drop size) with
    | none => rfl
    | some further => rw [Option.bind_some, Place.skip_skip]; rfl
  have whole_eq (f : Nat → Option Place) :
      (if 0 < runLength Char.isDigit place.after then f (runLength Char.isDigit place.after)
        else none) = (wholeSize? place.after).bind f := by
    rw [wholeSize?, digitCount_eq_runLength]
    split <;> rfl
  rw [preferred_eq_tryThen, float, tryThen_group, tryThen_either, tryThen_seq, tryThen_either,
    tryThen_pointed commits_exponent, tryThen_pointed commits, digit_eq_one,
    tryThen_plus commits_exponent.within, whole_eq fun size => exponent.tryThen _ (place.skip size)]
  simp only [exponent_eq]
  rw [floatSize?_eq_or, Option.map_or, Option.map_or, Option.map_bind, Option.map_bind,
    Option.or_assoc]
  cases pointSize? place.after <;> rfl

theorem tryThen_decimal (commits : CommitsWithin Char.isDigit next) (place : Place) :
    decimal.tryThen next place =
      (decimalSize? place.after).bind fun size => next (place.skip size) := by
  rw [decimal, tryThen_either, tryThen_seq, oneOf, tryThen_one, literal, tryThen_one, digit_eq_one]
  cases same : place.after with
  | nil => rfl
  | cons c rest =>
    rw [List.head?_cons, Option.any_some, Option.any_some, inClass_leadingDigit, decimalSize?]
    by_cases zero : c = '0'
    · subst zero
      rfl
    · rw [if_neg zero, if_neg (mt eq_of_beq zero), Option.or_none]
      by_cases digit : c.isDigit = true
      · have member : place.after.head?.any Char.isDigit = true := by rw [same]; exact digit
        have leads : (c.isDigit && c != '0') = true :=
          Bool.and_eq_true_iff.mpr ⟨digit, bne_iff_ne.mpr zero⟩
        rw [if_pos leads, if_pos digit, Option.bind_some,
          tryThen_star_within commits (head_before_skip_one member), Place.skip_skip,
          Place.after_skip, same, Nat.add_comm]
        rfl
      · rw [if_neg digit, if_neg (fun leads => digit (Bool.and_eq_true_iff.mp leads).1)]
        rfl

theorem inClass_hexMark (c : Char) :
    inClass [('x', 'x'), ('X', 'X')] c = true ↔ c = 'x' ∨ c = 'X' := by
  rw [inClass_cons, inClass_cons, inClass_nil, between_self, between_self, Bool.or_false,
    Bool.or_eq_true, beq_iff_eq, beq_iff_eq]

theorem hexSize?_eq_ite (rest : List Char) :
    hexSize? rest =
      let digits := runLength isHexDigit (rest.drop 2)
      if rest.head?.any (· == '0') then
        if (rest.drop 1).head?.any (inClass [('x', 'x'), ('X', 'X')]) then
          if 0 < digits then some (2 + digits) else none
        else none
      else none := by
  match rest with
  | [] => rfl
  | [zero] =>
    by_cases starts : zero = '0'
    · subst starts
      rfl
    · exact (ite_self _).symm
  | zero :: mark :: rest =>
    show (if zero = '0' ∧ (mark = 'x' ∨ mark = 'X') ∧ 0 < runLength isHexDigit rest then _
      else none) = if (zero == '0') = true then (if inClass _ mark = true then _ else none) else none
    simp only [beq_iff_eq, inClass_hexMark]
    by_cases starts : zero = '0'
    · by_cases marked : mark = 'x' ∨ mark = 'X'
      · simp only [starts, marked, true_and, if_true]
        rfl
      · simp only [marked, false_and, and_false, if_false, ite_self]
    · simp only [starts, false_and, if_false]

theorem tryThen_hexadecimal (commits : CommitsWithin isHexDigit next) (place : Place) :
    hexadecimal.tryThen next place =
      (hexSize? place.after).bind fun size => next (place.skip size) := by
  rw [hexadecimal, tryThen_seq, tryThen_seq, literal, tryThen_one, oneOf, tryThen_one,
    hexDigit_eq_one, tryThen_plus commits, Place.after_skip, Place.skip_skip, Place.skip_skip,
    Place.after_skip, hexSize?_eq_ite]
  dsimp only
  repeat' split
  all_goals rfl

/-- No word boundary stands between two characters of a class of word characters. -/
theorem commitsWithin_wordBoundary {isMember : Char → Bool}
    (words : ∀ c, isMember c = true → isWord c = true) :
    CommitsWithin isMember (wordBoundary.tryThen next) := by
  intro place behind failed
  by_cases member : place.after.head?.any isMember = true
  · obtain ⟨b, last, inside⟩ := (Option.any_eq_true _ _).mp behind
    obtain ⟨c, first, further⟩ := (Option.any_eq_true _ _).mp member
    rw [tryThen_wordBoundary, last, first, Option.any_some, Option.any_some, words b inside,
      words c further]
    rfl
  · rw [runLength_eq_zero.mpr (Bool.eq_false_iff.mpr member), Place.skip_zero] at failed
    exact failed

theorem CommitsWithin.tagged {isMember : Char → Bool} (commits : CommitsWithin isMember next)
    (tag : Tag) : CommitsWithin isMember fun place => next (place.tagged tag) :=
  fun place => commits (place.tagged tag)

theorem isWord_of_isDigit (c : Char) (digit : c.isDigit = true) : isWord c = true := by
  rw [isWord, Char.isAlphanum, digit, Bool.or_true, Bool.true_or]

theorem isWord_of_isHexDigit (c : Char) (digit : isHexDigit c = true) : isWord c = true := by
  simp only [isHexDigit, isWord, Char.isAlphanum, isAlpha_eq_between, Bool.or_eq_true,
    Bool.and_eq_true, decide_eq_true_eq] at digit ⊢
  rcases digit with (decimal | small) | large
  · exact .inl (.inr decimal)
  · exact .inl (.inl (.inr ⟨small.1, Char.le_trans small.2 (by decide)⟩))
  · exact .inl (.inl (.inl ⟨large.1, Char.le_trans large.2 (by decide)⟩))

theorem head_before_skip {place : Place} {size : Nat} (fits : Fits size place.after) :
    (place.skip size).before.head? = place.after[size - 1]? := by
  have positive := fits.1
  have present : size - 1 < place.after.length := by
    have bound := fits.2
    omega
  rw [Place.before_skip, List.head?_append, List.head?_reverse, List.getLast?_take,
    if_neg (Nat.ne_of_gt positive), List.getElem?_eq_getElem present, Option.some_or, Option.some_or]

/-- The word boundary of the table is the one that the scanner looks for. -/
theorem tryThen_wordBoundary_skip {place : Place} {size : Nat} (fits : Fits size place.after) :
    wordBoundary.tryThen next (place.skip size) =
      if boundaryAt place.after size then next (place.skip size) else none := by
  rw [tryThen_wordBoundary, boundaryAt, head_before_skip fits, Place.after_skip, List.head?_drop]

theorem inClass_longMark (c : Char) :
    inClass [('l', 'l'), ('L', 'L')] c = (c == 'l' || c == 'L') := by
  rw [inClass_cons, inClass_cons, inClass_nil, between_self, between_self, Bool.or_false]

theorem tryThen_suffix (place : Place) (size : Nat) :
    (seq (oneOf [('l', 'l'), ('L', 'L')]) wordBoundary).tryThen next (place.skip size) =
      if longSuffixAt place.after size then next (place.skip (size + 1)) else none := by
  rw [tryThen_seq, oneOf, tryThen_one, Place.after_skip, List.head?_drop, Place.skip_skip,
    longSuffixAt, funext inClass_longMark]
  by_cases marked : place.after[size]?.any (fun c => c == 'l' || c == 'L') = true
  · obtain ⟨c, present, -⟩ := (Option.any_eq_true _ _).mp marked
    obtain ⟨bound, -⟩ := List.getElem?_eq_some_iff.mp present
    rw [if_pos marked, marked, Bool.true_and, tryThen_wordBoundary_skip ⟨Nat.succ_pos _, bound⟩]
  · rw [if_neg marked, if_neg (fun suffix => marked (Bool.and_eq_true_iff.mp suffix).1)]

theorem bind_ite_eq_map_filter {β : Type} (size : Option Nat) (test : Nat → Bool) (f : Nat → β) :
    (size.bind fun n => if test n then some (f n) else none) = (size.filter test).map f := by
  cases size with
  | none => rfl
  | some n => by_cases passed : test n = true <;> simp [Option.filter, passed]

/-- Both notations are tested, the decimal one first. -/
theorem find?_integerSizes (rest : List Char) (test : Nat → Bool) :
    (integerSizes rest).find? (fun (_, size) => test size) =
      (((decimalSize? rest).filter test).map (Tag.integer, ·)).or
        (((hexSize? rest).filter test).map (Tag.hexInteger, ·)) := by
  have single (tag : Tag) (size : Option Nat) :
      (size.toList.map (tag, ·)).find? (fun (_, size) => test size) =
        (size.filter test).map (tag, ·) := by
    cases size with
    | none => rfl
    | some n => by_cases passed : test n = true <;> simp [Option.filter, passed]
  rw [integerSizes, List.find?_append, single, single]

theorem commits_suffix {isMember : Char → Bool} (small : isMember 'l' = false)
    (large : isMember 'L' = false) :
    Commits isMember ((seq (oneOf [('l', 'l'), ('L', 'L')]) wordBoundary).tryThen next) := by
  rw [tryThen_seq, oneOf, funext inClass_longMark]
  apply commits_one
  intro c member
  rw [beq_eq_false_of_not_mem small member, beq_eq_false_of_not_mem large member]
  rfl

theorem preferred_longInteger (place : Place) :
    longInteger.preferred place =
      ((integerSizes place.after).find? fun (_, size) => longSuffixAt place.after size).map
        fun (_, size) => (place.skip (size + 1)).tagged .longInteger := by
  rw [preferred_eq_tryThen, longInteger, tryThen_group, tryThen_seq, tryThen_either,
    tryThen_decimal (commits_suffix rfl rfl).within,
    tryThen_hexadecimal (commits_suffix rfl rfl).within]
  simp only [tryThen_suffix]
  rw [bind_ite_eq_map_filter, bind_ite_eq_map_filter, find?_integerSizes, Option.map_or,
    Option.map_map, Option.map_map]
  rfl

theorem preferred_wholeNumber (place : Place) :
    wholeNumber.preferred place =
      ((integerSizes place.after).find? fun (_, size) => boundaryAt place.after size).map
        fun (tag, size) => (place.skip size).tagged tag := by
  have bounded (tag : Tag) (size? : Option Nat)
      (fits : ∀ size, size? = some size → Fits size place.after) :
      (size?.bind fun size => wordBoundary.tryThen some ((place.skip size).tagged tag)) =
        (size?.filter (boundaryAt place.after)).map fun size => (place.skip size).tagged tag := by
    rw [← bind_ite_eq_map_filter]
    refine Option.bind_congr fun size known => ?_
    exact tryThen_wordBoundary_skip (show Fits size (place.tagged tag).after from fits size known)
  rw [preferred_eq_tryThen, wholeNumber, tryThen_seq, tryThen_either, tryThen_group, tryThen_group,
    tryThen_decimal (CommitsWithin.tagged (commitsWithin_wordBoundary isWord_of_isDigit) _),
    tryThen_hexadecimal (CommitsWithin.tagged (commitsWithin_wordBoundary isWord_of_isHexDigit) _),
    bounded .integer _ fun _ => fits_decimalSize?, bounded .hexInteger _ fun _ => fits_hexSize?,
    find?_integerSizes, Option.map_or, Option.map_map, Option.map_map]
  rfl

end QueryHighlight.Scan
