import QueryHighlight.Proofs.Scan.ReadAlike

/-!
A number cut out of its line. A reader of numbers asks what stands behind the characters that it
takes only to see that they are all, so it takes the same ones where nothing stands behind them; and
it finds nothing in a part of a text in which it finds nothing. Only the readers that want a word
boundary care about the cut, and the end of a line is one behind every word character.
-/

namespace QueryHighlight.Scan
open Text

/-- A reader that makes the same of a text and of a part of it that has all that is found. -/
def ReadsWithin (reader : List Char → Option Nat) : Prop :=
  ∀ ⦃rest : List Char⦄ ⦃count : Nat⦄, (∀ size ∈ reader rest, size ≤ count) →
    reader (rest.take count) = reader rest

theorem runLength_take (test : Char → Bool) (rest : List Char) (count : Nat) :
    runLength test (rest.take count) = min count (runLength test rest) := by
  rw [runLength, ← List.take_takeWhile, List.length_take, runLength]

namespace ReadsWithin

variable {reader : List Char → Option Nat} {rest : List Char} {size : Nat}

theorem of_some (within : ReadsWithin reader) (found : reader rest = some size) {count : Nat}
    (inside : size ≤ count) : reader (rest.take count) = some size := by
  rw [within, found]
  rw [found]
  intro _ same
  exact Option.some.inj same ▸ inside

theorem of_none (within : ReadsWithin reader) (found : reader rest = none) (count : Nat) :
    reader (rest.take count) = none := by
  rw [within, found]
  rw [found]
  exact fun _ absent => nomatch absent

end ReadsWithin

/-- Where the part is too short for what could be found, nothing is found in either. -/
theorem reads_short {reader : List Char → Option Nat} {least : List Char → Nat} {rest : List Char}
    {count : Nat} (fits : ∀ {text size}, reader text = some size → Fits size text)
    (large : ∀ {text size}, reader text = some size → least text < size)
    (short : count ≤ least rest) (also : count ≤ least (rest.take count))
    (bound : ∀ size ∈ reader rest, size ≤ count) : reader (rest.take count) = reader rest := by
  have whole : reader rest = none := by
    refine Option.eq_none_iff_forall_ne_some.mpr fun size found => ?_
    exact absurd (bound size found) (Nat.not_le.mpr (short.trans_lt (large found)))
  have part : reader (rest.take count) = none := by
    refine Option.eq_none_iff_forall_ne_some.mpr fun size found => ?_
    have within : size ≤ count := (fits found).2.trans (List.length_take_le count rest)
    exact absurd within (Nat.not_le.mpr (also.trans_lt (large found)))
  rw [whole, part]

/-- The digits in front of a point belong to what is found. -/
theorem digits_lt_pointSize? {rest : List Char} {size : Nat} (found : pointSize? rest = some size) :
    runLength Char.isDigit rest < size := by
  rw [pointSize?_eq_ite, Option.ite_none_right_eq_some, Option.ite_none_right_eq_some,
    Option.some.injEq] at found
  omega

theorem readsWithin_pointSize? : ReadsWithin pointSize? := by
  intro rest count bound
  by_cases short : count ≤ runLength Char.isDigit rest
  · have also : count ≤ runLength Char.isDigit (rest.take count) := by
      rw [runLength_take, Nat.min_eq_left short]
    exact reads_short fits_pointSize? digits_lt_pointSize? short also bound
  · rw [Nat.not_le] at short
    have point_eq : ((rest.drop (runLength Char.isDigit rest)).take
        (count - runLength Char.isDigit rest)).head? =
          (rest.drop (runLength Char.isDigit rest)).head? := by
      rw [List.head?_take, if_neg (Nat.sub_ne_zero_of_lt short)]
    rw [pointSize?_eq_ite] at bound ⊢
    rw [pointSize?_eq_ite]
    simp only [runLength_take, Nat.min_eq_right (Nat.le_of_lt short), List.drop_take, point_eq]
      at bound ⊢
    generalize runLength Char.isDigit rest = whole at *
    generalize runLength Char.isDigit (rest.drop (whole + 1)) = fraction at *
    split
    next point =>
      rw [if_pos point] at bound
      by_cases digits : 0 < whole ∨ 0 < fraction
      · have fits := bound _ (if_pos digits)
        rw [Nat.min_eq_right (by omega : fraction ≤ count - (whole + 1))]
      · rw [if_neg digits, if_neg (by omega)]
    next => rfl

theorem one_lt_of_exponentSize? {rest : List Char} {size : Nat}
    (found : exponentSize? rest = some size) : 1 < size := by
  cases rest with
  | nil => cases found
  | cons mark rest =>
    rw [exponentSize?, Option.ite_none_right_eq_some, Option.ite_none_right_eq_some,
      Option.some.injEq] at found
    omega

theorem readsWithin_exponentSize? : ReadsWithin exponentSize? := by
  intro rest count bound
  by_cases short : count ≤ 1
  · exact reads_short fits_exponentSize? one_lt_of_exponentSize? short short bound
  · obtain ⟨further, rfl⟩ := Nat.exists_eq_add_of_le' (Nat.not_le.mp short)
    cases rest with
    | nil => rw [List.take_nil]
    | cons mark rest =>
      have head_eq : (rest.take (further + 1)).head? = rest.head? := by
        rw [List.head?_take, if_neg (Nat.succ_ne_zero further)]
      have digits_eq (sign : Nat) : digitCount ((rest.take (further + 1)).drop sign) =
          min (further + 1 - sign) (digitCount (rest.drop sign)) := by
        rw [List.drop_take]
        exact runLength_take _ _ _
      rw [exponentSize?] at bound
      rw [List.take_succ_cons, exponentSize?, exponentSize?, head_eq]
      simp only [digits_eq]
      split
      next marked =>
        rw [if_pos marked] at bound
        generalize (if rest.head?.any isSign then 1 else 0) = sign at bound ⊢
        by_cases positive : 0 < digitCount (rest.drop sign)
        · have fits := bound _ (if_pos positive)
          rw [Nat.min_eq_right (by omega)]
        · rw [if_neg positive, if_neg (by omega)]
      next => rfl

theorem readsWithin_decimalSize? : ReadsWithin decimalSize? := by
  intro rest count bound
  match rest, count with
  | [], _ => rw [List.take_nil]
  | rest, 0 =>
    have positive {text size} (found : decimalSize? text = some size) : 0 < size :=
      (fits_decimalSize? found).1
    exact reads_short fits_decimalSize? positive (Nat.le_refl 0) (Nat.le_refl 0) bound
  | c :: rest, count + 1 =>
    rw [decimalSize?] at bound
    rw [List.take_succ_cons, decimalSize?, decimalSize?]
    split
    next => rfl
    next zero =>
      rw [if_neg zero] at bound
      split
      next digit =>
        have fits := bound _ (if_pos digit)
        have digits_eq : digitCount (rest.take count) = min count (digitCount rest) :=
          runLength_take _ _ _
        rw [digits_eq, Nat.min_eq_right (Nat.le_of_succ_le_succ fits)]
      next => rfl

theorem two_lt_of_hexSize? {rest : List Char} {size : Nat} (found : hexSize? rest = some size) :
    2 < size := by
  rw [hexSize?_eq_ite, Option.ite_none_right_eq_some, Option.ite_none_right_eq_some,
    Option.ite_none_right_eq_some, Option.some.injEq] at found
  omega

theorem readsWithin_hexSize? : ReadsWithin hexSize? := by
  intro rest count bound
  by_cases short : count ≤ 2
  · exact reads_short fits_hexSize? two_lt_of_hexSize? short short bound
  · obtain ⟨further, rfl⟩ := Nat.exists_eq_add_of_le' (Nat.le_of_not_le short)
    match rest with
    | [] => rw [List.take_nil]
    | [zero] => rw [List.take_succ_cons, List.take_nil]
    | zero :: mark :: rest =>
      have digits_eq : hexDigitCount (rest.take further) = min further (hexDigitCount rest) :=
        runLength_take _ _ _
      rw [hexSize?] at bound
      rw [List.take_succ_cons, List.take_succ_cons, hexSize?, hexSize?, digits_eq]
      by_cases found : zero = '0' ∧ (mark = 'x' ∨ mark = 'X') ∧ 0 < hexDigitCount rest
      · have fits := bound _ (if_pos found)
        rw [Nat.min_eq_right (by omega)]
      · rw [if_neg found, if_neg]
        rintro ⟨starts, marked, positive⟩
        exact found ⟨starts, marked, by omega⟩

theorem withExponent?_take {rest : List Char} {size count : Nat} (inside : size ≤ count)
    (bound : ∀ total ∈ withExponent? rest size, total ≤ count) :
    withExponent? (rest.take count) size = withExponent? rest size := by
  have within : ∀ further ∈ exponentSize? (rest.drop size), further ≤ count - size := by
    intro further found
    have total : size + further ≤ count :=
      bound _ (Option.map_eq_some_iff.mpr ⟨further, found, rfl⟩)
    omega
  rw [withExponent?, withExponent?, List.drop_take, readsWithin_exponentSize? within]

/-- Length of digits with an exponent. -/
def scaledSize? (rest : List Char) : Option Nat := (wholeSize? rest).bind (withExponent? rest)

theorem scaledSize?_eq_ite (rest : List Char) :
    scaledSize? rest =
      if 0 < runLength Char.isDigit rest then withExponent? rest (runLength Char.isDigit rest)
      else none := by
  rw [scaledSize?, wholeSize?, digitCount_eq_runLength]
  split <;> rfl

theorem fits_scaledSize? {rest : List Char} {size : Nat} (found : scaledSize? rest = some size) :
    Fits size rest := by
  obtain ⟨whole, known, exponent⟩ := Option.bind_eq_some_iff.mp found
  exact fits_withExponent? (fits_wholeSize? known).2 exponent

theorem digits_lt_scaledSize? {rest : List Char} {size : Nat}
    (found : scaledSize? rest = some size) : runLength Char.isDigit rest < size := by
  rw [scaledSize?_eq_ite, Option.ite_none_right_eq_some, withExponent?, Option.map_eq_some_iff]
    at found
  obtain ⟨-, further, exponent, same⟩ := found
  have positive := (fits_exponentSize? exponent).1
  omega

theorem readsWithin_scaledSize? : ReadsWithin scaledSize? := by
  intro rest count bound
  by_cases short : count ≤ runLength Char.isDigit rest
  · have also : count ≤ runLength Char.isDigit (rest.take count) := by
      rw [runLength_take, Nat.min_eq_left short]
    exact reads_short fits_scaledSize? digits_lt_scaledSize? short also bound
  · rw [Nat.not_le] at short
    rw [scaledSize?_eq_ite] at bound ⊢
    rw [scaledSize?_eq_ite, runLength_take, Nat.min_eq_right (Nat.le_of_lt short)]
    split
    next digits =>
      rw [if_pos digits] at bound
      exact withExponent?_take (Nat.le_of_lt short) bound
    next => rfl

/-- Behind some digits stands a point or an exponent, not both. -/
theorem pointSize?_of_scaledSize? {rest : List Char} {size : Nat}
    (found : scaledSize? rest = some size) : pointSize? rest = none := by
  rw [scaledSize?_eq_ite, Option.ite_none_right_eq_some, withExponent?, Option.map_eq_some_iff]
    at found
  obtain ⟨-, further, exponent, -⟩ := found
  have noPoint : (rest.drop (runLength Char.isDigit rest)).head?.any (· == '.') = false := by
    cases same : rest.drop (runLength Char.isDigit rest) with
    | nil => rfl
    | cons mark after =>
      rw [same, exponentSize?, Option.ite_none_right_eq_some] at exponent
      rw [List.head?_cons, Option.any_some, beq_eq_false_iff_ne]
      rintro rfl
      cases exponent.1
  rw [pointSize?_eq_ite]
  simp only [noPoint, Bool.false_eq_true, if_false]

theorem floatSize?_eq_scaled (rest : List Char) :
    floatSize? rest = ((pointSize? rest).bind (withExponent? rest)).or
      ((scaledSize? rest).or (pointSize? rest)) := floatSize?_eq_or rest

theorem floatSize?_take {rest : List Char} {size : Nat} (found : floatSize? rest = some size) :
    floatSize? (rest.take size) = some size := by
  rw [floatSize?_eq_scaled, Option.or_eq_some_iff, Option.or_eq_some_iff] at found
  rw [floatSize?_eq_scaled]
  rcases found with longPoint | ⟨-, scaled | ⟨notScaled, point⟩⟩
  · obtain ⟨pointed, known, exponent⟩ := Option.bind_eq_some_iff.mp longPoint
    have inside : pointed ≤ size := by
      obtain ⟨further, -, rfl⟩ := Option.map_eq_some_iff.mp exponent
      exact Nat.le_add_right pointed further
    have again : withExponent? (rest.take size) pointed = some size := by
      rw [withExponent?_take inside (exponent ▸ fun _ same => (Option.some.inj same).ge), exponent]
    rw [readsWithin_pointSize?.of_some known inside, Option.bind_some, again, Option.some_or]
  · -- A point is tried first, so none must turn up in the part.
    have noPoint := readsWithin_pointSize?.of_none (pointSize?_of_scaledSize? scaled) size
    have again := readsWithin_scaledSize?.of_some scaled (Nat.le_refl size)
    rw [noPoint, Option.bind_none, Option.none_or, again, Option.some_or]
  · have again := readsWithin_pointSize?.of_some point (Nat.le_refl size)
    have noExponent : withExponent? (rest.take size) size = none := by
      rw [withExponent?, List.drop_take_self]
      rfl
    rw [again, Option.bind_some, noExponent, Option.none_or,
      readsWithin_scaledSize?.of_none notScaled, Option.none_or]

theorem floatSize?_take_of_none {rest : List Char} (found : floatSize? rest = none) (count : Nat) :
    floatSize? (rest.take count) = none := by
  rw [floatSize?_eq_scaled, Option.or_eq_none_iff, Option.or_eq_none_iff] at found
  obtain ⟨-, notScaled, noPoint⟩ := found
  rw [floatSize?_eq_scaled, readsWithin_pointSize?.of_none noPoint,
    readsWithin_scaledSize?.of_none notScaled]
  rfl

/-- The longer of the two readings of a whole number, before it is asked where it ends. -/
def integerReading? (rest : List Char) : Option (Tag × Nat) :=
  ((hexSize? rest).map (Tag.hexInteger, ·)).or ((decimalSize? rest).map (Tag.integer, ·))

theorem integerReading?_take {rest : List Char} {tag : Tag} {size count : Nat}
    (known : integerReading? rest = some (tag, size)) (inside : size ≤ count) :
    integerReading? (rest.take count) = some (tag, size) := by
  rw [integerReading?, Option.or_eq_some_iff, Option.map_eq_none_iff] at known
  rw [integerReading?]
  rcases known with hexadecimal | ⟨notHex, decimal⟩
  · obtain ⟨_, found, same⟩ := Option.map_eq_some_iff.mp hexadecimal
    cases same
    rw [readsWithin_hexSize?.of_some found inside]
    rfl
  · obtain ⟨_, found, same⟩ := Option.map_eq_some_iff.mp decimal
    cases same
    rw [readsWithin_hexSize?.of_none notHex, readsWithin_decimalSize?.of_some found inside]
    rfl

theorem mem_integerSizes_of_integerReading? {rest : List Char} {tag : Tag} {size : Nat}
    (known : integerReading? rest = some (tag, size)) : (tag, size) ∈ integerSizes rest := by
  rw [integerReading?, Option.or_eq_some_iff] at known
  rw [mem_integerSizes]
  rcases known with hexadecimal | ⟨-, decimal⟩
  · obtain ⟨_, found, same⟩ := Option.map_eq_some_iff.mp hexadecimal
    cases same
    exact .inr ⟨found, rfl⟩
  · obtain ⟨_, found, same⟩ := Option.map_eq_some_iff.mp decimal
    cases same
    exact .inl ⟨found, rfl⟩

/-- The zero in front of a hexadecimal mark is not where a number ends. -/
theorem zero_of_hexSize? {rest : List Char} {size : Nat} (found : hexSize? rest = some size) :
    decimalSize? rest = some 1 ∧ longSuffixAt rest 1 = false ∧ boundaryAt rest 1 = false := by
  unfold hexSize? at found
  split at found
  next zero mark digits =>
    obtain ⟨⟨rfl, marked, -⟩, -⟩ := Option.ite_none_right_eq_some.mp found
    rcases marked with rfl | rfl <;> exact ⟨rfl, rfl, rfl⟩
  next => cases found

/-- The shorter reading never ends an integer, so the longer one decides. -/
theorem integer?_eq_bind (rest : List Char) :
    integer? rest = (integerReading? rest).bind fun (tag, size) =>
      if longSuffixAt rest size then some (.longInteger, size + 1)
      else if boundaryAt rest size then some (tag, size) else none := by
  cases hexadecimal : hexSize? rest with
  | some size =>
    obtain ⟨decimal, notLong, goesOn⟩ := zero_of_hexSize? hexadecimal
    simp only [integer?, integerSizes, integerReading?, hexadecimal, decimal, Option.toList_some,
      List.map_cons, List.map_nil, List.cons_append, List.nil_append, List.find?_cons,
      List.find?_nil, notLong, goesOn, Option.map_some, Option.some_or, Option.bind_some]
    cases longSuffixAt rest size <;> cases boundaryAt rest size <;> rfl
  | none =>
    cases decimal : decimalSize? rest with
    | none => simp [integer?, integerSizes, integerReading?, hexadecimal, decimal]
    | some size =>
      simp only [integer?, integerSizes, integerReading?, hexadecimal, decimal, Option.toList_some,
        Option.toList_none, List.map_cons, List.map_nil, List.append_nil, List.find?_cons,
        List.find?_nil, Option.map_some, Option.map_none, Option.none_or, Option.bind_some]
      cases longSuffixAt rest size <;> cases boundaryAt rest size <;> rfl

theorem integer?_take {rest : List Char} {tag : Tag} {size : Nat}
    (found : integer? rest = some (tag, size)) :
    integer? (rest.take size) = some (tag, size) := by
  rw [integer?_eq_bind, Option.bind_eq_some_iff] at found
  obtain ⟨⟨reading, whole⟩, known, ends⟩ := found
  dsimp only at ends
  split at ends
  next suffix =>
    cases ends
    rw [integer?_eq_bind, integerReading?_take known (Nat.le_succ whole), Option.bind_some]
    have still : longSuffixAt (rest.take (whole + 1)) whole = true := by
      have one : (rest.take (whole + 1)).drop whole = (rest.drop whole).take 1 := by
        rw [List.drop_take, Nat.add_sub_cancel_left]
      have ended : ((rest.drop whole).take 1).tail = [] := by
        cases rest.drop whole <;> rfl
      rw [longSuffixAt_eq, Bool.and_eq_true] at suffix
      rw [longSuffixAt_eq, one, ended, List.head?_take, if_neg Nat.one_ne_zero, suffix.1]
      rfl
    dsimp only
    rw [if_pos still]
  next notLong =>
    obtain ⟨boundary, same⟩ := Option.ite_none_right_eq_some.mp ends
    cases same
    have ended : (rest.take size).drop size = [] := List.drop_take_self
    have again := integerReading?_take known (Nat.le_refl size)
    have still : boundaryAt (rest.take size) size = true := by
      rw [boundaryAt_of_mem_integerSizes (mem_integerSizes_of_integerReading? again), ended]
      rfl
    have noSuffix : longSuffixAt (rest.take size) size = false := by
      rw [longSuffixAt_eq, ended]
      rfl
    rw [integer?_eq_bind, again, Option.bind_some]
    simp only [noSuffix, still, Bool.false_eq_true, if_false, if_true]

/-- The rule for numbers claims the whole of what it has claimed in a line, under the same tag. -/
theorem numeral?_take {rest : List Char} {tag : Tag} {size : Nat}
    (found : numeral? rest = some (tag, size)) :
    numeral? (rest.take size) = some (tag, size) := by
  rw [numeral?, Option.orElse_eq_orElse, Option.orElse_eq_or, Option.or_eq_some_iff,
    Option.map_eq_none_iff] at found
  rw [numeral?, Option.orElse_eq_orElse, Option.orElse_eq_or]
  rcases found with float | ⟨notFloat, whole⟩
  · obtain ⟨_, known, same⟩ := Option.map_eq_some_iff.mp float
    cases same
    rw [floatSize?_take known]
    rfl
  · rw [floatSize?_take_of_none notFloat, integer?_take whole]
    rfl

end QueryHighlight.Scan
