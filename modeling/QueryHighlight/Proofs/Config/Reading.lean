import QueryHighlight.Config.Reader
import QueryHighlight.Proofs.Config.Symbols

/-!
Settings read from their symbols. Each reader takes the symbols of what it reads, wherever their
lexemes stand in a text and whatever comes behind them. The fields of an object are adopted one after
the other, and the first of a list or an object is read as if a comma stood in front of it.
-/

namespace QueryHighlight
open Json

namespace Config.Reader

/-- The reader takes lexemes of these symbols to a value, and leaves what comes behind them. -/
def Takes {α : Type} (read : List Lexeme → Except Problem (α × List Lexeme))
    (symbols : List Symbol) (value : α) : Prop :=
  ∀ lexemes rest : List Lexeme, lexemes.map Lexeme.symbol = symbols →
    read (lexemes ++ rest) = .ok (value, rest)

section

variable {α : Type} {read : List Lexeme → Except Problem (α × List Lexeme)} {value : α}

theorem takes_cons {symbol : Symbol} {symbols : List Symbol}
    (goesOn : ∀ lexeme lexemes rest, lexeme.symbol = symbol → lexemes.map Lexeme.symbol = symbols →
      read (lexeme :: (lexemes ++ rest)) = .ok (value, rest)) :
    Takes read (symbol :: symbols) value := by
  intro lexemes rest same
  obtain ⟨lexeme, others, rfl, first, same⟩ := List.map_eq_cons_iff.mp same
  exact goesOn lexeme others rest first same

theorem takes_singleton {symbol : Symbol}
    (stops : ∀ lexeme rest, lexeme.symbol = symbol → read (lexeme :: rest) = .ok (value, rest)) :
    Takes read [symbol] value := by
  apply takes_cons
  intro lexeme lexemes rest only same
  obtain rfl := List.map_eq_nil_iff.mp same
  exact stops lexeme rest only

/-- Two lexemes that are taken together, and those behind them. -/
theorem takes_cons_cons {first second : Symbol} {symbols : List Symbol}
    (goesOn : ∀ lexeme next lexemes rest, lexeme.symbol = first → next.symbol = second →
      lexemes.map Lexeme.symbol = symbols →
        read (lexeme :: next :: (lexemes ++ rest)) = .ok (value, rest)) :
    Takes read (first :: second :: symbols) value := by
  apply takes_cons
  intro lexeme lexemes rest isFirst same
  obtain ⟨next, others, rfl, isSecond, same⟩ := List.map_eq_cons_iff.mp same
  exact goesOn lexeme next others rest isFirst isSecond same

theorem takes_readString (value : String) :
    Takes readString (SettingValue.text value).symbols value := by
  apply takes_singleton
  intro lexeme rest isString
  rw [readString, isString]

theorem takes_readBool (value : Bool) : Takes readBool (SettingValue.flag value).symbols value := by
  apply takes_singleton
  intro lexeme rest isBool
  rw [readBool, isBool]

/-- A word behind a comma is read, and what comes behind it. -/
theorem readFurtherWords_word {comma item : Lexeme} {word : String}
    (isComma : comma.symbol = .comma) (isWord : item.symbol = .string word)
    (behind : List Lexeme) :
    readFurtherWords (comma :: item :: behind) =
      (readFurtherWords behind).map fun (words, rest) => (word :: words, rest) := by
  rw [readFurtherWords.eq_def]
  simp only [isComma, isWord]

theorem takes_readFurtherWords (words : List String) :
    Takes readFurtherWords
      ((words.map fun word => [Symbol.string word]).flatMap (.comma :: ·) ++ [.closeList])
      words := by
  induction words with
  | nil =>
    apply takes_singleton
    intro closing rest isClosing
    rw [readFurtherWords.eq_def]
    simp only [isClosing]
  | cons word words ih =>
    apply takes_cons_cons
    intro comma item lexemes rest isComma isWord same
    rw [readFurtherWords_word isComma isWord, ih lexemes rest same]
    rfl

theorem takes_readWords (words : List String) :
    Takes readWords (SettingValue.words words).symbols words := by
  cases words with
  | nil =>
    apply takes_cons_cons
    intro opening closing lexemes rest isOpening isClosing same
    obtain rfl := List.map_eq_nil_iff.mp same
    rw [readWords, isOpening]
    simp only [readWordsBehind, isClosing, List.nil_append]
  | cons word words =>
    apply takes_cons_cons
    intro opening item lexemes rest isOpening isWord same
    rw [readWords, isOpening]
    simp only [readWordsBehind, isWord, takes_readFurtherWords words lexemes rest same]
    rfl

theorem readOptional_null {lexeme : Lexeme} (isNull : lexeme.symbol = .null)
    (rest : List Lexeme) : readOptional read (lexeme :: rest) = .ok (none, rest) := by
  obtain ⟨symbol, before, after⟩ := lexeme
  obtain rfl := isNull
  rfl

theorem readOptional_cons {lexeme : Lexeme} (notNull : lexeme.symbol ≠ .null)
    (rest : List Lexeme) :
    readOptional read (lexeme :: rest) =
      (read (lexeme :: rest)).map fun (value, rest) => (some value, rest) := by
  unfold readOptional
  split
  next same =>
    obtain ⟨rfl, -⟩ := List.cons.inj same
    exact absurd rfl notNull
  next => rfl

/-- No value has the symbol of a missing one in front, nor the bracket that closes a list. -/
theorem exists_symbols_eq_cons (value : SettingValue) :
    ∃ symbol symbols, value.symbols = symbol :: symbols ∧ symbol ≠ .null ∧ symbol ≠ .closeList := by
  cases value with
  | text value => exact ⟨.string value, [], rfl, nofun, nofun⟩
  | flag value => exact ⟨.bool value, [], rfl, nofun, nofun⟩
  | words values => cases values <;> exact ⟨.openList, _, rfl, nofun, nofun⟩

theorem takes_readOptional {form : α → SettingValue}
    (takes : ∀ value, Takes read (form value).symbols value) (value : Option α) :
    Takes (readOptional read) ((value.map form).elim [.null] SettingValue.symbols) value := by
  cases value with
  | none =>
    apply takes_singleton
    intro lexeme rest isNull
    exact readOptional_null isNull rest
  | some value =>
    intro lexemes rest same
    obtain ⟨symbol, symbols, split, notNull, -⟩ := exists_symbols_eq_cons (form value)
    obtain ⟨lexeme, others, rfl, isFirst, -⟩ := List.map_eq_cons_iff.mp (same.trans split)
    have taken := takes value _ rest same
    rw [List.cons_append] at taken ⊢
    rw [readOptional_cons (isFirst ▸ notNull), taken]
    rfl

end

section

variable {source overrides : Overrides}

theorem takes_readSetting (setting : Setting) :
    Takes (readSetting setting overrides) (source.valueSymbols setting)
      (source.adopt overrides setting) := by
  intro lexemes rest same
  cases setting with
  | dialect =>
    rw [readSetting, takes_readOptional takes_readString source.dialect lexemes rest same]
    rfl
  | comments =>
    rw [readSetting, takes_readOptional takes_readBool source.comments lexemes rest same]
    rfl
  | keywords =>
    rw [readSetting, takes_readOptional takes_readWords source.keywords lexemes rest same]
    rfl
  | functions =>
    rw [readSetting, takes_readOptional takes_readWords source.functions lexemes rest same]
    rfl
  | constants =>
    rw [readSetting, takes_readOptional takes_readWords source.constants lexemes rest same]
    rfl

variable {seen : List Setting} {setting : Setting} {name : String}

theorem settingOf_new (isKey : setting.IsKey name) (new : setting ∉ seen) (rest : List Lexeme) :
    settingOf seen name rest = .ok setting := by
  rw [settingOf, Setting.ofName?_of_isKey isKey]
  exact if_neg (by simpa only [List.contains_iff_mem] using new)

theorem settingOf_seen (isKey : setting.IsKey name) (again : setting ∈ seen)
    (rest : List Lexeme) :
    settingOf seen name rest = .error ⟨.duplicateField setting.name, leftClosingObject rest⟩ := by
  rw [settingOf, Setting.ofName?_of_isKey isKey]
  exact if_pos (List.contains_iff_mem.mpr again)

theorem expectColon_colon {lexeme : Lexeme} (isColon : lexeme.symbol = .colon)
    (rest : List Lexeme) : expectColon (lexeme :: rest) = .ok rest := by
  obtain ⟨symbol, before, after⟩ := lexeme
  obtain rfl := isColon
  rfl

theorem readField_new (isKey : setting.IsKey name) (new : setting ∉ seen) {lexemes : List Lexeme}
    (same : lexemes.map Lexeme.symbol = .colon :: source.valueSymbols setting)
    (rest : List Lexeme) :
    readField seen overrides name (lexemes ++ rest) =
      .ok (setting, source.adopt overrides setting, rest) := by
  obtain ⟨colon, value, rfl, isColon, same⟩ := List.map_eq_cons_iff.mp same
  rw [readField, settingOf_new isKey new, List.cons_append]
  simp only [bind, Except.bind, expectColon_colon isColon, takes_readSetting setting value rest same]
  rfl

theorem readField_seen (isKey : setting.IsKey name) (again : setting ∈ seen)
    (rest : List Lexeme) :
    readField seen overrides name rest =
      .error ⟨.duplicateField setting.name, leftClosingObject rest⟩ := by
  rw [readField, settingOf_seen isKey again]
  rfl

variable {comma key : Lexeme} {behind rest : List Lexeme}

/-- A field behind a comma is read, and what comes behind it. -/
theorem readFurtherFields_field (isComma : comma.symbol = .comma)
    (isName : key.symbol = .string name) :
    readFurtherFields seen overrides (comma :: key :: behind) =
      readField seen overrides name behind >>= fun (setting, overrides, left) =>
        readFurtherFields (setting :: seen) overrides left := by
  rw [readFurtherFields, isComma]
  simp only [isName]
  split
  next problem failed => rw [failed]; rfl
  next read => rw [read]; rfl

/-- Fields that name settings for the first time are all adopted. -/
theorem readFurtherFields_fields {fields : List (Setting × String)}
    (isKey : ∀ field ∈ fields, field.1.IsKey field.2) (once : (fields.map Prod.fst).Nodup)
    (new : ∀ field ∈ fields, field.1 ∉ seen) {lexemes : List Lexeme}
    (same : lexemes.map Lexeme.symbol = (fields.map source.fieldSymbols).flatMap (.comma :: ·))
    (rest : List Lexeme) :
    readFurtherFields seen overrides (lexemes ++ rest) =
      readFurtherFields ((fields.map Prod.fst).reverse ++ seen)
        ((fields.map Prod.fst).foldl source.adopt overrides) rest := by
  induction fields generalizing seen overrides lexemes with
  | nil =>
    obtain rfl := List.map_eq_nil_iff.mp same
    rfl
  | cons field fields ih =>
    obtain ⟨comma, lexemes, rfl, isComma, same⟩ := List.map_eq_cons_iff.mp same
    obtain ⟨key, lexemes, rfl, isName, same⟩ := List.map_eq_cons_iff.mp same
    obtain ⟨value, others, rfl, value_eq, others_eq⟩ := List.map_eq_append_iff.mp same
    obtain ⟨isKeyHere, isKeyThere⟩ := List.forall_mem_cons.mp isKey
    obtain ⟨newHere, newThere⟩ := List.forall_mem_cons.mp new
    obtain ⟨notLater, onceThere⟩ := List.nodup_cons.mp once
    have newBehind : ∀ other ∈ fields, other.1 ∉ field.1 :: seen := by
      intro other member
      rw [List.mem_cons, not_or]
      refine ⟨?_, newThere other member⟩
      intro same
      apply notLater
      rw [← same]
      exact List.mem_map_of_mem member
    rw [List.cons_append, List.cons_append, List.append_assoc,
      readFurtherFields_field isComma isName, readField_new isKeyHere newHere value_eq]
    show readFurtherFields (field.1 :: seen) _ (others ++ rest) = _
    rw [ih isKeyThere onceThere newBehind others_eq, List.map_cons, List.reverse_cons,
      List.append_assoc, List.singleton_append, List.foldl_cons]

/-- A comma in front makes the first of a row one of the further ones. -/
def leadingComma : Lexeme := ⟨.comma, 0, 0⟩

theorem readFields_eq (isName : key.symbol = .string name) (rest : List Lexeme) :
    readFields (key :: rest) = readFurtherFields [] {} (leadingComma :: key :: rest) := by
  rw [readFurtherFields_field rfl isName, readFields, isName]

/-- The fields of an object up to where one more may come. -/
theorem readFields_fields {first : Setting × String} {fields : List (Setting × String)}
    (isKey : ∀ field ∈ first :: fields, field.1.IsKey field.2)
    (once : ((first :: fields).map Prod.fst).Nodup) {lexemes : List Lexeme}
    (same : lexemes.map Lexeme.symbol =
      source.fieldSymbols first ++ (fields.map source.fieldSymbols).flatMap (.comma :: ·))
    (rest : List Lexeme) :
    readFields (lexemes ++ rest) =
      readFurtherFields ((first :: fields).map Prod.fst).reverse
        (((first :: fields).map Prod.fst).foldl source.adopt {}) rest := by
  obtain ⟨key, others, rfl, isName, -⟩ := List.map_eq_cons_iff.mp same
  have allSame : (leadingComma :: key :: others).map Lexeme.symbol =
      ((first :: fields).map source.fieldSymbols).flatMap (.comma :: ·) :=
    congrArg (Symbol.comma :: ·) same
  calc
    readFields (key :: others ++ rest) =
        readFurtherFields [] {} (leadingComma :: key :: others ++ rest) := readFields_eq isName _
    _ = readFurtherFields (((first :: fields).map Prod.fst).reverse ++ [])
          (((first :: fields).map Prod.fst).foldl source.adopt {}) rest :=
      readFurtherFields_fields isKey once (fun _ _ => List.not_mem_nil) allSame rest
    _ = _ := by rw [List.append_nil]

/-- An item behind a comma is read, unless the list closes there. -/
theorem readFurtherItems_item {count : Nat} {settings : List Setting}
    {item : Lexeme} (isComma : comma.symbol = .comma) (notClosing : item.symbol ≠ .closeList) :
    readFurtherItems count overrides (setting :: settings) (comma :: item :: rest) =
      readSetting setting overrides (item :: rest) >>= fun (overrides, left) =>
        readFurtherItems (count + 1) overrides settings left := by
  rw [readFurtherItems.eq_def]
  simp only [isComma]
  split
  next same => cases same
  next same =>
    obtain ⟨rfl, -⟩ := List.cons.inj same
    exact absurd rfl notClosing
  next => rfl

theorem exists_valueSymbols_eq_cons (source : Overrides) (setting : Setting) :
    ∃ symbol symbols, source.valueSymbols setting = symbol :: symbols ∧ symbol ≠ .closeList := by
  unfold Overrides.valueSymbols
  cases source.given setting with
  | none => exact ⟨.null, [], rfl, nofun⟩
  | some value =>
    obtain ⟨symbol, symbols, split, -, notClosing⟩ := exists_symbols_eq_cons value
    exact ⟨symbol, symbols, split, notClosing⟩

theorem takes_readFurtherItems (count : Nat) (settings : List Setting) :
    Takes (readFurtherItems count overrides settings)
      ((settings.map source.valueSymbols).flatMap (.comma :: ·) ++ [.closeList])
      (settings.foldl source.adopt overrides) := by
  induction settings generalizing count overrides with
  | nil =>
    apply takes_singleton
    intro closing rest isClosing
    simp only [readFurtherItems, closeItems, isClosing]
    rfl
  | cons setting settings ih =>
    rw [List.map_cons, List.flatMap_cons, List.append_assoc]
    apply takes_cons
    intro comma lexemes rest isComma same
    obtain ⟨value, others, rfl, value_eq, others_eq⟩ := List.map_eq_append_iff.mp same
    obtain ⟨symbol, symbols, split, notClosing⟩ := exists_valueSymbols_eq_cons source setting
    obtain ⟨item, behind, rfl, isItem, -⟩ := List.map_eq_cons_iff.mp (value_eq.trans split)
    have taken : readSetting setting overrides (item :: behind ++ (others ++ rest)) = _ :=
      takes_readSetting setting _ (others ++ rest) value_eq
    have itemHere : item.symbol ≠ .closeList := isItem ▸ notClosing
    rw [List.append_assoc, List.cons_append, readFurtherItems_item isComma itemHere,
      ← List.cons_append, taken]
    exact ih (count + 1) others rest others_eq

theorem readItems_eq {item : Lexeme} (notClosing : item.symbol ≠ .closeList)
    (rest : List Lexeme) :
    readItems (item :: rest) = readFurtherItems 0 {} Setting.all (leadingComma :: item :: rest) := by
  rw [Setting.all, readFurtherItems_item rfl notClosing]
  unfold readItems
  split
  next same => cases same
  next same =>
    obtain ⟨rfl, -⟩ := List.cons.inj same
    exact absurd rfl notClosing
  next => rfl

/-- The five items of a list. -/
theorem takes_readItems :
    Takes readItems (source.valueSymbols .dialect ++
      ([.comments, .keywords, .functions, .constants].map source.valueSymbols).flatMap
        (.comma :: ·) ++ [.closeList]) source := by
  intro lexemes rest same
  obtain ⟨symbol, symbols, split, notClosing⟩ := exists_valueSymbols_eq_cons source .dialect
  have starts := same
  rw [split] at starts
  obtain ⟨item, others, rfl, isItem, -⟩ := List.map_eq_cons_iff.mp starts
  calc
    readItems (item :: others ++ rest) =
        readFurtherItems 0 {} Setting.all (leadingComma :: item :: others ++ rest) :=
      readItems_eq (isItem ▸ notClosing) _
    _ = .ok (source, rest) :=
      takes_readFurtherItems 0 Setting.all _ rest (congrArg (Symbol.comma :: ·) same)

/-- Settings are read from every row of symbols that says what they are. -/
theorem takes_readOverrides {settings : Overrides} {symbols : List Symbol}
    (has : settings.HasSymbols symbols) : Takes readOverrides symbols settings := by
  cases has with
  | list =>
    apply takes_cons
    intro opening lexemes rest isOpening same
    rw [readOverrides, isOpening]
    exact takes_readItems lexemes rest same
  | object fields isKey once complete =>
    have adopted := Overrides.foldl_adopt_eq complete
    cases fields with
    | nil =>
      apply takes_cons_cons
      intro opening closing lexemes rest isOpening isClosing same
      obtain rfl := List.map_eq_nil_iff.mp same
      rw [readOverrides, isOpening, ← adopted]
      simp only [List.nil_append, readFields, isClosing]
      rfl
    | cons first fields =>
      apply takes_cons
      intro opening lexemes rest isOpening same
      obtain ⟨named, closing, rfl, named_eq, closing_eq⟩ := List.map_eq_append_iff.mp same
      obtain ⟨closing, rfl, isClosing⟩ := List.map_eq_singleton_iff.mp closing_eq
      rw [readOverrides, isOpening, List.append_assoc]
      simp only [readFields_fields isKey once named_eq, adopted]
      unfold readFurtherFields
      simp only [List.singleton_append, isClosing]

/-- A setting that is named again is refused whatever its value is, and whatever comes then. -/
theorem readOverrides_again {settings : Overrides} {symbols : List Symbol}
    (again : settings.NamesAgain setting symbols) {lexemes : List Lexeme}
    (same : lexemes.map Lexeme.symbol = symbols) (rest : List Lexeme) :
    ∃ left, readOverrides (lexemes ++ rest) = .error ⟨.duplicateField setting.name, left⟩ := by
  obtain ⟨first, fields, isKey, once, before, again⟩ := again
  obtain ⟨opening, lexemes, rfl, isOpening, same⟩ := List.map_eq_cons_iff.mp same
  obtain ⟨named, others, rfl, named_eq, same⟩ := List.map_eq_append_iff.mp same
  obtain ⟨comma, others, rfl, isComma, same⟩ := List.map_eq_cons_iff.mp same
  obtain ⟨key, rfl, isName⟩ := List.map_eq_singleton_iff.mp same
  rw [List.cons_append, readOverrides, isOpening]
  show ∃ left, readFields (named ++ [comma, key] ++ rest) = _
  rw [List.append_assoc, readFields_fields isKey once named_eq, List.cons_append,
    List.singleton_append, readFurtherFields_field isComma isName,
    readField_seen again (List.mem_reverse.mpr before)]
  exact ⟨_, rfl⟩

end

end Config.Reader

end QueryHighlight
