import QueryHighlight.Proofs.Config.Reading
import QueryHighlight.Proofs.Json.Lexemes

/-!
What is asked of a parser of settings: that it reads the settings that a text gives, however the
text is spelled, and that it refuses an object that names a setting again. Nothing else of a parser
is used anywhere, and the one for JSON does as asked.
-/

namespace QueryHighlight
open Json

/-- The text is made of these symbols and of blanks. -/
def Json.SpellsText (symbols : List Symbol) (text : String) : Prop :=
  ∃ body blanks, SpellsEach SpellsSpaced symbols body ∧ (∀ c ∈ blanks, IsBlank c) ∧
    text.toList = body ++ blanks

/-- The text starts with these symbols, whatever comes behind them. -/
def Json.SpellsStart (symbols : List Symbol) (text : String) : Prop :=
  ∃ body rest, SpellsEach SpellsSpaced symbols body ∧ text.toList = body ++ rest

namespace SettingsParser

structure Lawful (parse : SettingsParser) : Prop where
  /-- A text that gives settings is read as those, with their words as they stand there. -/
  given : ∀ {settings : Overrides} {symbols : List Symbol} {text : String},
    settings.HasSymbols symbols → SpellsText symbols text → parse text = .ok settings
  /-- A key for a setting that has a value already is where the reading ends. -/
  again : ∀ {settings : Overrides} {setting : Setting} {symbols : List Symbol} {text : String},
    settings.NamesAgain setting symbols → SpellsStart symbols text →
      ∃ left place, parse text = .error (⟨.duplicateField setting.name, left⟩, place)

theorem json_eq_ok {settings : Overrides} {symbols : List Symbol} {text : String}
    (has : settings.HasSymbols symbols) (spelled : SpellsText symbols text) :
    json text = .ok settings := by
  obtain ⟨body, blanks, each, blank, text_eq⟩ := spelled
  obtain ⟨read, symbols_eq, lexemes_eq⟩ := lexemes_spelled each blanks
  have taken := Config.Reader.takes_readOverrides has read [] symbols_eq
  rw [json, Overrides.ofJson, text_eq, lexemes_eq, lexemes_blanks blank, taken]
  rfl

theorem json_eq_error {settings : Overrides} {setting : Setting} {symbols : List Symbol}
    {text : String} (named : settings.NamesAgain setting symbols)
    (spelled : SpellsStart symbols text) :
    ∃ left place, json text = .error (⟨.duplicateField setting.name, left⟩, place) := by
  obtain ⟨body, rest, each, text_eq⟩ := spelled
  obtain ⟨read, symbols_eq, lexemes_eq⟩ := lexemes_spelled each rest
  obtain ⟨left, refused⟩ := Config.Reader.readOverrides_again named symbols_eq (lexemes rest)
  rw [json, Overrides.ofJson, text_eq, lexemes_eq, refused]
  exact ⟨left, _, rfl⟩

theorem lawful_json : json.Lawful where
  given := json_eq_ok
  again := json_eq_error

end SettingsParser

end QueryHighlight
