import QueryHighlight.Config.Overrides
import QueryHighlight.Config.Setting
import QueryHighlight.Json.Lexeme

/-!
Settings as a row of JSON symbols. An object names each of its fields by one of the names of a
setting, a list gives all five in their order, and `null` says that a setting is not given.
-/

namespace QueryHighlight
open Json

/-- What a setting is given as. -/
inductive SettingValue where
  | text (value : String)
  | flag (value : Bool)
  | words (values : List String)

/-- What the query editor calls a setting. -/
def Setting.editorName? : Setting → Option String
  | dialect => none
  | comments => some "commentsEnabled"
  | keywords => some "keywordSet"
  | functions => some "functionSet"
  | constants => some "constantSet"

def Setting.IsKey (setting : Setting) (key : String) : Prop :=
  key = setting.name ∨ setting.editorName? = some key

instance (setting : Setting) (key : String) : Decidable (setting.IsKey key) :=
  inferInstanceAs (Decidable (_ ∨ _))

theorem Setting.ofName?_of_isKey {setting : Setting} {key : String} (isKey : setting.IsKey key) :
    Setting.ofName? key = some setting := by
  rcases isKey with rfl | ofEditor
  · cases setting <;> decide
  · cases setting <;> cases ofEditor <;> decide

namespace Overrides

variable {overrides source : Overrides}

/-- What a setting is given as, if it is given. -/
def given (overrides : Overrides) : Setting → Option SettingValue
  | .dialect => overrides.dialect.map .text
  | .comments => overrides.comments.map .flag
  | .keywords => overrides.keywords.map .words
  | .functions => overrides.functions.map .words
  | .constants => overrides.constants.map .words

theorem ext_given {first second : Overrides}
    (same : ∀ setting, first.given setting = second.given setting) : first = second := by
  have byText : Function.Injective SettingValue.text := fun _ _ => SettingValue.text.inj
  have byFlag : Function.Injective SettingValue.flag := fun _ _ => SettingValue.flag.inj
  have byWords : Function.Injective SettingValue.words := fun _ _ => SettingValue.words.inj
  have dialect_eq := Option.map_injective byText (same .dialect)
  have comments_eq := Option.map_injective byFlag (same .comments)
  have keywords_eq := Option.map_injective byWords (same .keywords)
  have functions_eq := Option.map_injective byWords (same .functions)
  have constants_eq := Option.map_injective byWords (same .constants)
  cases first
  cases second
  simp_all only

/-- The settings with one of them as other settings have it. -/
def adopt (source overrides : Overrides) : Setting → Overrides
  | .dialect => { overrides with dialect := source.dialect }
  | .comments => { overrides with comments := source.comments }
  | .keywords => { overrides with keywords := source.keywords }
  | .functions => { overrides with functions := source.functions }
  | .constants => { overrides with constants := source.constants }

theorem given_adopt (setting other : Setting) :
    (source.adopt overrides setting).given other =
      if other = setting then source.given other else overrides.given other := by
  cases setting <;> cases other <;> rfl

theorem given_foldl_adopt (settings : List Setting) (other : Setting) :
    (settings.foldl source.adopt overrides).given other =
      if other ∈ settings then source.given other else overrides.given other := by
  induction settings generalizing overrides with
  | nil => rfl
  | cons setting rest ih =>
    rw [List.foldl_cons, ih, given_adopt]
    by_cases here : other = setting
    · simp only [here, List.mem_cons_self, if_true, ite_self]
    · simp only [List.mem_cons, here, false_or, if_false]

/-- Adopting every setting that is given gives all there is. -/
theorem foldl_adopt_eq {settings : List Setting}
    (complete : ∀ setting, setting ∉ settings → source.given setting = none) :
    settings.foldl source.adopt {} = source := by
  apply ext_given
  intro setting
  rw [given_foldl_adopt]
  split
  · rfl
  next missing =>
    rw [complete setting missing]
    cases setting <;> rfl

end Overrides

/-- Items with commas between them, in brackets. -/
def row (opening closing : Symbol) : List (List Symbol) → List Symbol
  | [] => [opening, closing]
  | item :: items => opening :: item ++ items.flatMap (.comma :: ·) ++ [closing]

def SettingValue.symbols : SettingValue → List Symbol
  | .text value => [.string value]
  | .flag value => [.bool value]
  | .words values => row .openList .closeList (values.map fun word => [.string word])

namespace Overrides

variable (settings : Overrides)

/-- The value of a setting, with `null` for one that is not given. -/
def valueSymbols (setting : Setting) : List Symbol :=
  (settings.given setting).elim [.null] SettingValue.symbols

/-- A setting behind the key that names it. -/
def fieldSymbols (field : Setting × String) : List Symbol :=
  .string field.2 :: .colon :: settings.valueSymbols field.1

/-- The rows of symbols that say what the settings are, the words of each list in their order. -/
inductive HasSymbols : List Symbol → Prop
  | object (fields : List (Setting × String)) (isKey : ∀ field ∈ fields, field.1.IsKey field.2)
    (once : (fields.map Prod.fst).Nodup)
    (complete : ∀ setting, setting ∉ fields.map Prod.fst → settings.given setting = none) :
    HasSymbols (row .openObject .closeObject (fields.map settings.fieldSymbols))
  | list :
    HasSymbols (row .openList .closeList
      ([.dialect, .comments, .keywords, .functions, .constants].map settings.valueSymbols))

/-- The symbols of an object up to a key for a setting that it has named before. -/
inductive NamesAgain (setting : Setting) : List Symbol → Prop
  | intro (first : Setting × String) (fields : List (Setting × String))
    (isKey : ∀ field ∈ first :: fields, field.1.IsKey field.2)
    (once : ((first :: fields).map Prod.fst).Nodup)
    (before : setting ∈ (first :: fields).map Prod.fst) {key : String}
    (again : setting.IsKey key) :
    NamesAgain setting (.openObject :: settings.fieldSymbols first ++
      (fields.map settings.fieldSymbols).flatMap (.comma :: ·) ++ [.comma, .string key])

end Overrides

end QueryHighlight
