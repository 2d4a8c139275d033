import QueryHighlight.Proofs.Json.Lexemes

/-!
Printed JSON is read back. A value is the same again at whatever level it was printed, as long as
nothing follows that its last number could go on with; within lists and objects a comma, a line
feed or a bracket follows, so that this holds all the way down.
-/

namespace QueryHighlight.Json
open Text

mutual

/-- What the printed form of a value says. -/
def Data.ofValue : Value → Data
  | .number value => .number value 0
  | .string value => .string value
  | .list items => .list (ofItems items)
  | .object fields => .object (ofFields fields)

def Data.ofItems : List Value → List Data
  | [] => []
  | item :: items => ofValue item :: ofItems items

def Data.ofFields : List (String × Value) → List (String × Data)
  | [] => []
  | (key, value) :: fields => (key, ofValue value) :: ofFields fields

end

theorem Data.ofItems_eq_map (items : List Value) : ofItems items = items.map ofValue := by
  induction items with
  | nil => rfl
  | cons item later ih => rw [ofItems, ih, List.map_cons]

variable {rest : List Char}

/-- White space in front of a value does not count. -/
theorem readValue_skip {fuel : Nat} {text other : List Char}
    (same : skipSeparators text = skipSeparators other) :
    readValue fuel text = readValue fuel other := by
  cases fuel with
  | zero => rw [readValue, readValue]
  | succ fuel => rw [readValue, readValue, same]

theorem readItems_newline (fuel depth : Nat) (text : List Char) :
    readItems fuel (newline depth ++ text) = readItems fuel text := by
  cases fuel with
  | zero => rw [readItems, readItems]
  | succ fuel => rw [readItems, readItems, readValue_skip (skipSeparators_newline depth text)]

theorem readFields_newline (fuel depth : Nat) (text : List Char) :
    readFields fuel (newline depth ++ text) = readFields fuel text := by
  cases fuel with
  | zero => rw [readFields, readFields]
  | succ fuel => rw [readFields, readFields, skipSeparators_newline]

/-- A printed value starts with a character of its own, which closes nothing. -/
theorem exists_printed_eq_cons (depth : Nat) (value : Value) :
    ∃ c rest, printed depth value = c :: rest ∧ isSeparator c = false ∧ c ≠ ']' := by
  cases value with
  | number number =>
    obtain ⟨c, rest, same, isDigit⟩ := exists_toDigits_eq_cons number
    refine ⟨c, rest, by rw [printed, toList_toString, same], isSeparator_of_isDigit isDigit, ?_⟩
    rintro rfl
    exact absurd isDigit (by decide)
  | string text => exact ⟨'"', _, rfl, by decide, by decide⟩
  | list items => cases items <;> exact ⟨'[', _, rfl, by decide, by decide⟩
  | object fields => cases fields <;> exact ⟨'\x7b', _, rfl, by decide, by decide⟩

/-- The value is read back from its printed form, at whatever level it stands, before everything
that its last number could not go on with. -/
def ReadsBack (value : Value) : Prop :=
  ∀ (depth fuel : Nat) (rest : List Char), EndsNumber rest →
    2 * (printed depth value).length ≤ fuel →
      readValue fuel (printed depth value ++ rest) = some (.ofValue value, rest)

/-- A printed value has a character, so there is fuel to read it. -/
theorem exists_fuel {depth fuel : Nat} {value : Value}
    (enough : 2 * (printed depth value).length ≤ fuel) : ∃ less, fuel = less + 1 := by
  obtain ⟨c, rest, same, -⟩ := exists_printed_eq_cons depth value
  rw [same, List.length_cons] at enough
  exact ⟨fuel - 1, by omega⟩

theorem readsBack_number (number : Nat) : ReadsBack (.number number) := by
  intro depth fuel rest ends enough
  obtain ⟨fuel, rfl⟩ := exists_fuel enough
  obtain ⟨c, others, same, isDigit⟩ := exists_toDigits_eq_cons number
  rw [printed, toList_toString, same, readValue, List.cons_append,
    skipSeparators_cons (isSeparator_of_isDigit isDigit)]
  split
  next absent => cases absent
  next starts => exact absurd ((List.cons.inj starts).1 ▸ isDigit) (by decide)
  next starts => exact absurd ((List.cons.inj starts).1 ▸ isDigit) (by decide)
  next starts => exact absurd ((List.cons.inj starts).1 ▸ isDigit) (by decide)
  next starts =>
    obtain ⟨rfl, rfl⟩ := List.cons.inj starts
    exact readPlain_toDigits ends number same isDigit

theorem readsBack_string (text : String) : ReadsBack (.string text) := by
  intro depth fuel rest _ enough
  obtain ⟨fuel, rfl⟩ := exists_fuel enough
  have quote : isSeparator '"' = false := by decide
  rw [printed, encodedString, List.cons_append, List.cons_append, readValue,
    skipSeparators_cons quote, List.append_assoc, List.singleton_append]
  simp only [readText_encoded]
  rfl

theorem readBehind_close {α : Type} {close : Char} (closes : isSeparator close = false) (item : α)
    (depth : Nat) (rest : List Char) (more : List Char → Option (List α × List Char)) :
    readBehind close item (newline depth ++ close :: rest) more = some ([item], rest) := by
  have found : skipSeparators (newline depth ++ close :: rest) = close :: rest := by
    rw [skipSeparators_newline, skipSeparators_cons closes]
  simp only [readBehind, found, if_true]

theorem readBehind_comma {α : Type} {close : Char} (closes : close ≠ ',') (item : α)
    {items : List α} {text behind : List Char} {more : List Char → Option (List α × List Char)}
    (later : more text = some (items, behind)) :
    readBehind close item (',' :: text) more = some (item :: items, behind) := by
  have comma : isSeparator ',' = false := by decide
  simp only [readBehind, skipSeparators_cons comma, if_neg (Ne.symm closes), if_true, later,
    Option.map_some]

theorem readItems_printed {item : Value} {later : List Value}
    (each : ∀ value ∈ item :: later, ReadsBack value) (depth outer fuel : Nat) (rest : List Char)
    (enough : 2 * (printed depth item ++ printedItems depth later).length < fuel) :
    readItems fuel
        (printed depth item ++ (printedItems depth later ++ (newline outer ++ ']' :: rest))) =
      some (Data.ofItems (item :: later), rest) := by
  induction later generalizing item fuel with
  | nil =>
    obtain ⟨fuel, rfl⟩ : ∃ less, fuel = less + 1 := ⟨fuel - 1, by omega⟩
    rw [printedItems, List.append_nil] at enough
    have first := each item List.mem_cons_self depth fuel (newline outer ++ ']' :: rest)
      (endsNumber_newline outer _) (Nat.le_of_lt_succ enough)
    rw [printedItems, List.nil_append, readItems, first]
    exact readBehind_close (by decide) _ outer rest _
  | cons next others ih =>
    obtain ⟨fuel, rfl⟩ : ∃ less, fuel = less + 1 := ⟨fuel - 1, by omega⟩
    obtain ⟨here, there⟩ := List.forall_mem_cons.mp each
    simp only [printedItems, List.length_append, List.length_cons] at enough
    have behind := ih there fuel (by rw [List.length_append]; omega)
    rw [← readItems_newline fuel depth] at behind
    simp only [printedItems, List.cons_append, List.append_assoc]
    rw [readItems, here depth fuel _ (endsNumber_comma _) (by omega)]
    exact readBehind_comma (by decide : ']' ≠ ',') _ behind

/-- One field, and how reading goes on behind it. -/
theorem readFields_field {value : Value} (here : ReadsBack value) (key : String) (depth fuel : Nat)
    {after : List Char} (ends : EndsNumber after)
    (enough : 2 * (printed depth value).length ≤ fuel) :
    readFields (fuel + 1)
        (encodedString key ++ (':' :: ' ' :: (printed depth value ++ after))) =
      readBehind '\x7d' (key, Data.ofValue value) after (readFields fuel) := by
  have quote : isSeparator '"' = false := by decide
  have colon : isSeparator ':' = false := by decide
  have space : skipSeparators (' ' :: (printed depth value ++ after)) =
      skipSeparators (printed depth value ++ after) := rfl
  rw [readFields, encodedString, List.cons_append, List.cons_append, skipSeparators_cons quote,
    List.append_assoc, List.singleton_append]
  simp only [readText_encoded, Option.bind_eq_bind, Option.bind_some, skipSeparators_cons colon,
    readValue_skip space, here depth fuel after ends enough]

theorem readFields_printed {key : String} {value : Value} {later : List (String × Value)}
    (each : ∀ field ∈ (key, value) :: later, ReadsBack field.2) (depth outer fuel : Nat)
    (rest : List Char)
    (enough : 2 * (printed depth value ++ printedFields depth later).length < fuel) :
    readFields fuel
        (encodedString key ++ (':' :: ' ' :: (printed depth value ++
          (printedFields depth later ++ (newline outer ++ '\x7d' :: rest))))) =
      some (Data.ofFields ((key, value) :: later), rest) := by
  induction later generalizing key value fuel with
  | nil =>
    obtain ⟨fuel, rfl⟩ : ∃ less, fuel = less + 1 := ⟨fuel - 1, by omega⟩
    have here : ReadsBack value := each _ List.mem_cons_self
    rw [printedFields, List.append_nil] at enough
    rw [printedFields, List.nil_append, readFields_field here key depth fuel
      (endsNumber_newline outer _) (Nat.le_of_lt_succ enough)]
    exact readBehind_close (by decide) _ outer rest _
  | cons next others ih =>
    obtain ⟨fuel, rfl⟩ : ∃ less, fuel = less + 1 := ⟨fuel - 1, by omega⟩
    obtain ⟨nextKey, nextValue⟩ := next
    have here : ReadsBack value := each _ List.mem_cons_self
    simp only [printedFields, List.length_append, List.length_cons] at enough
    have behind := ih (fun field member => each field (List.mem_cons_of_mem _ member)) fuel
      (by rw [List.length_append]; omega)
    rw [← readFields_newline fuel depth] at behind
    simp only [printedFields, List.cons_append, List.append_assoc, List.nil_append]
    rw [readFields_field here key depth fuel (endsNumber_comma _) (by omega)]
    exact readBehind_comma (by decide : '\x7d' ≠ ',') _ behind

/-- A list that does not close at once has items. -/
theorem readValue_list {text others : List Char} {c : Char}
    (first : skipSeparators text = c :: others) (opens : c ≠ ']') (fuel : Nat) :
    readValue (fuel + 1) ('[' :: text) =
      (readItems fuel (c :: others)).map fun (items, behind) => (.list items, behind) := by
  rw [readValue, skipSeparators_cons (by decide)]
  simp only [first]
  split
  next closes => exact absurd (List.cons.inj closes).1 opens
  next => rfl

theorem readValue_object {text others : List Char} (first : skipSeparators text = '"' :: others)
    (fuel : Nat) :
    readValue (fuel + 1) ('\x7b' :: text) =
      (readFields fuel ('"' :: others)).map fun (fields, behind) => (.object fields, behind) := by
  rw [readValue, skipSeparators_cons (by decide)]
  simp only [first]
  rfl

theorem readsBack_list {items : List Value} (each : ∀ item ∈ items, ReadsBack item) :
    ReadsBack (.list items) := by
  intro depth fuel rest _ enough
  obtain ⟨fuel, rfl⟩ := exists_fuel enough
  cases items with
  | nil =>
    have bracket : isSeparator '[' = false := by decide
    have close : isSeparator ']' = false := by decide
    rw [printed, List.cons_append, List.cons_append, readValue, skipSeparators_cons bracket]
    simp only [skipSeparators_cons close]
    rfl
  | cons item later =>
    simp only [printed, List.length_append, List.length_cons] at enough
    obtain ⟨c, others, same, plain, opens⟩ := exists_printed_eq_cons (depth + 1) item
    have items := readItems_printed each (depth + 1) depth fuel rest
      (by rw [List.length_append]; omega)
    simp only [printed, List.cons_append, List.append_assoc, List.nil_append]
    simp only [same, List.cons_append] at items ⊢
    rw [readValue_list _ opens, items]
    · rfl
    · rw [skipSeparators_newline, skipSeparators_cons plain]

theorem readsBack_object {fields : List (String × Value)}
    (each : ∀ field ∈ fields, ReadsBack field.2) : ReadsBack (.object fields) := by
  intro depth fuel rest _ enough
  obtain ⟨fuel, rfl⟩ := exists_fuel enough
  cases fields with
  | nil =>
    have brace : isSeparator '\x7b' = false := by decide
    have close : isSeparator '\x7d' = false := by decide
    rw [printed, List.cons_append, List.cons_append, readValue, skipSeparators_cons brace]
    simp only [skipSeparators_cons close]
    rfl
  | cons field later =>
    obtain ⟨key, value⟩ := field
    simp only [printed, List.length_append, List.length_cons] at enough
    have fields := readFields_printed each (depth + 1) depth fuel rest
      (by rw [List.length_append]; omega)
    simp only [printed, List.cons_append, List.append_assoc, List.nil_append]
    simp only [encodedString, List.cons_append] at fields ⊢
    rw [readValue_object, fields]
    · rfl
    · rw [skipSeparators_newline, skipSeparators_cons (by decide)]

theorem sizeOf_snd_lt : ∀ field : String × Value, sizeOf field.2 < sizeOf field
  | (key, value) => by
    show sizeOf value < sizeOf (key, value)
    rw [Prod.mk.sizeOf_spec]
    omega

/-- Every value is read back from its printed form. -/
theorem readsBack : ∀ value : Value, ReadsBack value
  | .number number => readsBack_number number
  | .string text => readsBack_string text
  | .list items => readsBack_list fun item _ => readsBack item
  | .object fields => readsBack_object fun field _ => readsBack field.2
termination_by value => sizeOf value
decreasing_by
  · have := List.sizeOf_lt_of_mem ‹item ∈ items›
    simp only [Value.list.sizeOf_spec]
    omega
  · have := List.sizeOf_lt_of_mem ‹field ∈ fields›
    have : sizeOf field.2 < sizeOf field := sizeOf_snd_lt field
    simp only [Value.object.sizeOf_spec]
    omega

/-- A text that is a printed value and nothing more says that value. -/
theorem read_text (value : Value) : read value.text = some (.ofValue value) := by
  have all := readsBack value 0 (2 * (printed 0 value).length + 1) [] endsNumber_nil (by omega)
  rw [List.append_nil] at all
  rw [read, Value.text, String.length_ofList, String.toList_ofList, all]
  rfl

end QueryHighlight.Json
