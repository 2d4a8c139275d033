import QueryHighlight.Proofs.Config.Parser
import QueryHighlight.Proofs.Config.Validity
import QueryHighlight.Proofs.WordSet.Walk

/-!
The texts that spell the same settings. Fields may come in any order and under either of their
names, words in any order and more than once, and every symbol may be written in any of its ways.
With a parser that reads what is spelled none of it is seen in the configuration, which is the
dialect's with the given settings in place of its own.
-/

namespace QueryHighlight
open Json

namespace Overrides

def words? (settings : Overrides) : WordRole → Option (List String)
  | .keywords => settings.keywords
  | .functions => settings.functions
  | .constants => settings.constants

/-- The settings are the same but for the order of words and how often each of them is there. -/
structure Agrees (first second : Overrides) : Prop where
  dialect : first.dialect = second.dialect
  comments : first.comments = second.comments
  words : ∀ role, Option.Rel (fun words others => ∀ word, word ∈ words ↔ word ∈ others)
    (first.words? role) (second.words? role)

/-- The text says what the settings are and nothing more. -/
inductive IsSpelledIn (settings : Overrides) (text : String) : Prop
  | intro {written : Overrides} {symbols : List Symbol} (agrees : written.Agrees settings)
    (has : written.HasSymbols symbols) (spelled : SpellsText symbols text)

/-- The text starts with an object that names a setting it has named before. -/
inductive NamesTwice (settings : Overrides) (setting : Setting) (text : String) : Prop
  | intro {symbols : List Symbol} (again : settings.NamesAgain setting symbols)
    (spelled : SpellsStart symbols text)

/-- The dialect that is named, or the current one if none is. -/
inductive Chooses (settings : Overrides) : Dialect → Prop
  | missing (dialect_eq : settings.dialect = none) : Chooses settings .massmailer
  | massmailer (dialect_eq : settings.dialect = some "massmailer") : Chooses settings .massmailer
  | mailing (dialect_eq : settings.dialect = some "mailing") : Chooses settings .mailing

/-- A configuration has exactly the given settings in place of what the preset has. -/
structure IsOverriding (settings : Overrides) (preset config : Config) : Prop where
  comments : config.comments = settings.comments.getD preset.comments
  kept : ∀ role, settings.words? role = none → config.words role = preset.words role
  replaced : ∀ role words, settings.words? role = some words →
    ∀ word, (config.words role).contains word = true ↔ word ∈ words

section

variable {settings first second : Overrides}

theorem Agrees.refl (settings : Overrides) : settings.Agrees settings where
  dialect := rfl
  comments := rfl
  words role := by
    cases settings.words? role with
    | none => exact .none
    | some words => exact .some fun _ => .rfl

theorem map_ofList_congr {words others : Option (List String)}
    (same : Option.Rel (fun words others => ∀ word, word ∈ words ↔ word ∈ others) words others) :
    words.map WordSet.ofList = others.map WordSet.ofList := by
  cases same with
  | none => rfl
  | some members => exact congrArg some (WordSet.ofList_congr members)

theorem Agrees.applyTo_eq (agrees : first.Agrees second) (preset : Config) :
    first.applyTo preset = second.applyTo preset := by
  have keywords_eq := map_ofList_congr (agrees.words .keywords)
  have functions_eq := map_ofList_congr (agrees.words .functions)
  have constants_eq := map_ofList_congr (agrees.words .constants)
  simp only [words?] at keywords_eq functions_eq constants_eq
  rw [applyTo, applyTo, agrees.comments, keywords_eq, functions_eq, constants_eq]

theorem Agrees.validConfig_eq (agrees : first.Agrees second) :
    first.validConfig = second.validConfig := by
  unfold validConfig config
  simp only [agrees.dialect, agrees.applyTo_eq]

theorem words_applyTo (preset : Config) (role : WordRole) :
    (settings.applyTo preset).words role =
      ((settings.words? role).map WordSet.ofList).getD (preset.words role) := by
  cases role <;> rfl

theorem isOverriding_applyTo (settings : Overrides) (preset : Config) :
    settings.IsOverriding preset (settings.applyTo preset) where
  comments := rfl
  kept role missing := by
    rw [words_applyTo, missing]
    rfl
  replaced role words given word := by
    rw [words_applyTo, given]
    exact (WordSet.contains_ofList words word).symm ▸ List.contains_iff_mem

/-- Every part of the configuration is told by the settings and the preset. -/
theorem IsOverriding.unique {preset config other : Config}
    (overriding : settings.IsOverriding preset config)
    (otherOverriding : settings.IsOverriding preset other) : config = other := by
  have words_eq (role : WordRole) : config.words role = other.words role := by
    cases given : settings.words? role with
    | none => rw [overriding.kept role given, otherOverriding.kept role given]
    | some words =>
      apply WordSet.ext_contains
      intro word
      rw [overriding.replaced role words given, otherOverriding.replaced role words given]
  have comments_eq : config.comments = other.comments := by
    rw [overriding.comments, otherOverriding.comments]
  have keywords_eq := words_eq .keywords
  have functions_eq := words_eq .functions
  have constants_eq := words_eq .constants
  cases config
  cases other
  simp_all only [Config.words]

theorem Chooses.config_eq {dialect : Dialect} (chooses : settings.Chooses dialect) :
    settings.config = .ok (settings.applyTo (.ofDialect dialect)) := by
  unfold config
  cases chooses with
  | missing dialect_eq => rw [dialect_eq]; rfl
  | massmailer dialect_eq => rw [dialect_eq]; rfl
  | mailing dialect_eq => rw [dialect_eq]; rfl

theorem config_of_unknown {name : String} (named : settings.dialect = some name)
    (unknown : name ≠ "massmailer" ∧ name ≠ "mailing") :
    settings.config = .error (.unknownDialect name) := by
  have noDialect : Dialect.ofName? name = none := by
    rw [Dialect.ofName?, List.find?_eq_none]
    intro dialect _
    rw [beq_iff_eq]
    cases dialect with
    | massmailer => exact fun same => unknown.1 same.symm
    | mailing => exact fun same => unknown.2 same.symm
  rw [config, named]
  simp only [Dialect.ofName, noDialect]
  rfl

end

end Overrides

/-- With a lawful parser all texts that spell the same settings give the same: the refusal of a
dialect that is not known, or else the one configuration that has the given settings in place of the
dialect's, or what is wrong with its words. An object that names a setting twice is refused for
that, whatever it says there. -/
theorem Config.load_spelling {parse : SettingsParser} (lawful : parse.Lawful)
    (settings : Overrides) :
    (∃ result,
      (∀ text, settings.IsSpelledIn text → load parse text = result) ∧
      (∀ name, settings.dialect = some name → name ≠ "massmailer" ∧ name ≠ "mailing" →
        result = .error (.refused (.unknownDialect name))) ∧
      ∀ dialect, settings.Chooses dialect →
        ∃ config, (∀ other, settings.IsOverriding (.ofDialect dialect) other ↔ other = config) ∧
          (∀ refusal, config.validate = .error refusal → result = .error (.refused refusal)) ∧
          (config.validate = .ok () → result = .ok config)) ∧
    ∀ setting text, settings.NamesTwice setting text →
      ∃ left place,
        load parse text = .error (.malformed ⟨.duplicateField setting.name, left⟩ place) := by
  refine ⟨⟨settings.validConfig.mapError .refused, ?_, ?_, ?_⟩, ?_⟩
  · rintro text ⟨agrees, has, spelled⟩
    rw [load, lawful.given has spelled]
    exact congrArg (Except.mapError ConfigError.refused) agrees.validConfig_eq
  · intro name named unknown
    rw [Overrides.validConfig, Overrides.config_of_unknown named unknown]
    rfl
  · intro dialect chooses
    have overriding := settings.isOverriding_applyTo (.ofDialect dialect)
    refine ⟨settings.applyTo (.ofDialect dialect), ?_, ?_, ?_⟩
    · intro other
      constructor
      · intro otherOverriding
        exact otherOverriding.unique overriding
      · rintro rfl
        exact overriding
    · intro refusal refused
      rw [Overrides.validConfig, chooses.config_eq]
      simp only [bind, Except.bind, refused]
      rfl
    · intro valid
      rw [Overrides.validConfig, chooses.config_eq]
      simp only [bind, Except.bind, valid]
      rfl
  · rintro setting text ⟨again, spelled⟩
    obtain ⟨left, place, refused⟩ := lawful.again again spelled
    rw [load, refused]
    exact ⟨left, place, rfl⟩

/-- An object with a name from the editor, an escape and a repeated word says what a list says; a
second name for the same setting is refused. -/
theorem Config.load_spelling_editor_names :
    let settings : Overrides := { dialect := some "mailing", keywords := some ["a", "é"] }
    let object := "\x7b\"keywordSet\":[\"\\u00E9\",\"a\",\"a\"],\n \"dialect\":\"mailing\"\x7d "
    let list := "[\"mailing\",null,[\"a\",\"é\"],null,null]"
    let twice := "\x7b\"keywordSet\":[\"a\",\"é\"],\"keywords\""
    (∃ config, settings.IsOverriding (.ofDialect .mailing) config ∧
      Config.ofJson object = .ok config ∧ Config.ofJson list = .ok config) ∧
    ∃ left place,
      Config.ofJson twice = .error (.malformed ⟨.duplicateField "keywords", left⟩ place) := by
  intro settings object list twice
  have escaped : SpellsSymbol (.string "é") ['"', '\\', 'u', '0', '0', 'E', '9', '"'] :=
    .string ⟨[['\\', 'u', '0', '0', 'E', '9']], .cons (.code (by decide)) .nil, rfl⟩
  have plain := spellsSymbol_encodedString
  have objectSpelled : settings.IsSpelledIn object := by
    refine @Overrides.IsSpelledIn.intro _ _ { settings with keywords := some ["é", "a", "a"] } _
      ⟨rfl, rfl, ?_⟩ (.object [(.keywords, "keywordSet"), (.dialect, "dialect")] ?_ ?_ ?_)
      ⟨_, [' '], ⟨_, .cons (.bare .openObject) <| .cons (.bare (plain _)) <| .cons (.bare .colon) <|
        .cons (.bare .openList) <| .cons (.bare escaped) <| .cons (.bare .comma) <|
        .cons (.bare (plain _)) <| .cons (.bare .comma) <| .cons (.bare (plain _)) <|
        .cons (.bare .closeList) <| .cons (.bare .comma) <|
        .cons (.behind (show IsBlank '\n' by decide) <| .behind (show IsBlank ' ' by decide) <|
          .bare (plain _)) <|
        .cons (.bare .colon) <| .cons (.bare (plain _)) <| .cons (.bare .closeObject) .nil,
        rfl⟩, List.forall_mem_singleton.mpr (.inl rfl), by decide +kernel⟩
    · intro role
      cases role with
      | keywords => exact .some (by simp [or_comm])
      | functions => exact .none
      | constants => exact .none
    · decide
    · decide
    · intro setting missing
      cases setting with
      | keywords | dialect => exact absurd (by decide) missing
      | comments | functions | constants => rfl
  have listSpelled : settings.IsSpelledIn list :=
    @Overrides.IsSpelledIn.intro _ _ settings _ (.refl settings) .list
      ⟨_, [], ⟨_, .cons (.bare .openList) <| .cons (.bare (plain _)) <| .cons (.bare .comma) <|
        .cons (.bare .null) <| .cons (.bare .comma) <| .cons (.bare .openList) <|
        .cons (.bare (plain _)) <| .cons (.bare .comma) <| .cons (.bare (plain _)) <|
        .cons (.bare .closeList) <| .cons (.bare .comma) <| .cons (.bare .null) <|
        .cons (.bare .comma) <| .cons (.bare .null) <| .cons (.bare .closeList) .nil, rfl⟩,
        nofun, by decide +kernel⟩
  have namedTwice : settings.NamesTwice .keywords twice :=
    @Overrides.NamesTwice.intro _ _ _ _
      (.intro (.keywords, "keywordSet") [] (by decide) (by decide) (by decide) (.inl rfl))
      ⟨_, [], ⟨_, .cons (.bare .openObject) <| .cons (.bare (plain _)) <|
        .cons (.bare .colon) <| .cons (.bare .openList) <| .cons (.bare (plain _)) <|
        .cons (.bare .comma) <| .cons (.bare (plain _)) <| .cons (.bare .closeList) <|
        .cons (.bare .comma) <| .cons (.bare (plain _)) .nil, rfl⟩, by decide +kernel⟩
  obtain ⟨⟨result, same, -, given⟩, refused⟩ :=
    Config.load_spelling SettingsParser.lawful_json settings
  obtain ⟨config, only, -, valid⟩ := given .mailing (.mailing rfl)
  have applied := settings.isOverriding_applyTo (.ofDialect .mailing)
  have config_eq : settings.applyTo (.ofDialect .mailing) = config := (only _).mp applied
  have result_eq : result = .ok config := by
    apply valid
    rw [← config_eq]
    decide +kernel
  refine ⟨⟨config, (only config).mpr rfl, ?_, ?_⟩, refused .keywords twice namedTwice⟩
  · exact (same object objectSpelled).trans result_eq
  · exact (same list listSpelled).trans result_eq

end QueryHighlight
