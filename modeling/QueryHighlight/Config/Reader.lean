import QueryHighlight.Config.Load
import QueryHighlight.Config.Setting
import QueryHighlight.Json.Lexeme

/-!
The parser of settings that the command line runs with, which takes them in JSON. They are the
fields of an object, or the five items of a list in their order; `null` stands for a setting that is
not given. The first problem from left to right is reported, so a field that is unknown or of the
wrong type wins over whatever is wrong behind it.
-/

namespace QueryHighlight
open Json

namespace Config.Reader

/-- Bytes left when the blanks before the next lexeme have been skipped. -/
def ahead : List Lexeme → Nat
  | [] => 0
  | lexeme :: _ => lexeme.before

/-- A complaint about the next lexeme, which has been looked at but not taken. -/
def complain {α : Type} (cause : Cause) (lexemes : List Lexeme) : Except Problem α :=
  .error ⟨cause, ahead lexemes - 1⟩

/-- What the settings as a whole are called in messages. -/
def wholeName : String := "struct ConfigFile"

/-- The complaint about a lexeme that starts no value of the expected type. -/
def mismatch (expected : String) (lexeme : Lexeme) : Problem :=
  let wrong (found : String) : Problem := ⟨.invalidType found expected, lexeme.after⟩
  match lexeme.symbol with
  | .null => wrong "null"
  | .bool value => wrong ("boolean " ++ Cause.accented (toString value))
  | .number value => wrong value.description
  | .string value => wrong ("string " ++ Text.quoted value)
  | .openList => ⟨.invalidType "sequence" expected, lexeme.before⟩
  | .openObject => ⟨.invalidType "map" expected, lexeme.before⟩
  | .broken problem | .brokenString problem => problem
  | .closeObject | .closeList | .colon | .comma | .stray => ⟨.expectedValue, lexeme.before - 1⟩

def readString : List Lexeme → Except Problem (String × List Lexeme)
  | [] => complain .endOfValue []
  | lexeme :: rest =>
    match lexeme.symbol with
    | .string value => .ok (value, rest)
    | _ => .error (mismatch "a string" lexeme)

def readBool : List Lexeme → Except Problem (Bool × List Lexeme)
  | [] => complain .endOfValue []
  | lexeme :: rest =>
    match lexeme.symbol with
    | .bool value => .ok (value, rest)
    | _ => .error (mismatch "a boolean" lexeme)

/-- The words of a list behind its first, up to the closing bracket. -/
def readFurtherWords : List Lexeme → Except Problem (List String × List Lexeme)
  | [] => complain .endOfList []
  | lexeme :: rest =>
    match lexeme.symbol with
    | .closeList => .ok ([], rest)
    | .comma =>
      match rest with
      | [] => complain .endOfValue []
      | item :: behind =>
        match item.symbol with
        | .closeList => complain .trailingComma rest
        | .string word => (readFurtherWords behind).map fun (words, rest) => (word :: words, rest)
        | _ => .error (mismatch "a string" item)
    | _ => complain .expectedCommaOrBracket (lexeme :: rest)

/-- The words of a list behind its opening bracket. -/
def readWordsBehind : List Lexeme → Except Problem (List String × List Lexeme)
  | [] => complain .endOfList []
  | item :: rest =>
    match item.symbol with
    | .closeList => .ok ([], rest)
    | .string word => (readFurtherWords rest).map fun (words, rest) => (word :: words, rest)
    | _ => .error (mismatch "a string" item)

def readWords : List Lexeme → Except Problem (List String × List Lexeme)
  | [] => complain .endOfValue []
  | lexeme :: rest =>
    match lexeme.symbol with
    | .openList => readWordsBehind rest
    | _ => .error (mismatch "a sequence" lexeme)

/-- The value of a setting, unless it is `null`. -/
def readOptional {α : Type} (read : List Lexeme → Except Problem (α × List Lexeme)) :
    List Lexeme → Except Problem (Option α × List Lexeme)
  | ⟨.null, _, _⟩ :: rest => .ok (none, rest)
  | lexemes => (read lexemes).map fun (value, rest) => (some value, rest)

/-- Reads the value of a setting into the settings read so far. -/
def readSetting (setting : Setting) (overrides : Overrides) (lexemes : List Lexeme) :
    Except Problem (Overrides × List Lexeme) :=
  match setting with
  | .dialect => (readOptional readString lexemes).map fun (value, rest) =>
    ({ overrides with dialect := value }, rest)
  | .comments => (readOptional readBool lexemes).map fun (value, rest) =>
    ({ overrides with comments := value }, rest)
  | .keywords => (readOptional readWords lexemes).map fun (value, rest) =>
    ({ overrides with keywords := value }, rest)
  | .functions => (readOptional readWords lexemes).map fun (value, rest) =>
    ({ overrides with functions := value }, rest)
  | .constants => (readOptional readWords lexemes).map fun (value, rest) =>
    ({ overrides with constants := value }, rest)

/-- Bytes left after an attempt to close an object, which a complaint about its contents is placed
at: behind the brace, or before whatever else comes. -/
def leftClosingObject : List Lexeme → Nat
  | ⟨.closeObject, _, after⟩ :: _ => after
  | lexemes => ahead lexemes

/-- The same for a list, where a comma is taken first. -/
def leftClosingList : List Lexeme → Nat
  | ⟨.closeList, _, after⟩ :: _ => after
  | ⟨.comma, _, _⟩ :: rest => ahead rest
  | lexemes => ahead lexemes

/-- Finds out which setting a key names. The settings named before must not come again. -/
def settingOf (seen : List Setting) (key : String) (rest : List Lexeme) : Except Problem Setting :=
  match Setting.ofName? key with
  | none => .error ⟨.unknownField key (Setting.all.flatMap Setting.names), leftClosingObject rest⟩
  | some setting =>
    if seen.contains setting then
      .error ⟨.duplicateField setting.name, leftClosingObject rest⟩
    else .ok setting

/-- Takes the colon behind a key. -/
def expectColon : List Lexeme → Except Problem (List Lexeme)
  | [] => complain .endOfObject []
  | ⟨.colon, _, _⟩ :: rest => .ok rest
  | lexemes => complain .expectedColon lexemes

/-- The setting behind its key, with the colon between them. -/
def readField (seen : List Setting) (overrides : Overrides) (key : String) (rest : List Lexeme) :
    Except Problem (Setting × Overrides × List Lexeme) := do
  let setting ← settingOf seen key rest
  let value ← expectColon rest
  let (overrides, rest) ← readSetting setting overrides value
  return (setting, overrides, rest)

theorem length_readString {lexemes rest : List Lexeme} {value : String}
    (found : readString lexemes = .ok (value, rest)) : rest.length < lexemes.length := by
  unfold readString at found
  split at found
  · simp [complain] at found
  · split at found <;> simp_all

theorem length_readBool {lexemes rest : List Lexeme} {value : Bool}
    (found : readBool lexemes = .ok (value, rest)) : rest.length < lexemes.length := by
  unfold readBool at found
  split at found
  · simp [complain] at found
  · split at found <;> simp_all

theorem length_readFurtherWords {lexemes rest : List Lexeme} {words : List String}
    (found : readFurtherWords lexemes = .ok (words, rest)) : rest.length < lexemes.length := by
  fun_induction readFurtherWords lexemes generalizing words with
  | case1 => simp [complain] at found
  | case2 => simp_all
  | case3 => simp [complain] at found
  | case4 => simp [complain] at found
  | case5 lexeme _ item behind word _ ih =>
    obtain ⟨⟨others, left⟩, read, same⟩ := map_eq_ok.mp found
    obtain ⟨_, rfl⟩ := Prod.mk.inj same
    have shorter := ih read
    simp only [List.length_cons]
    omega
  | case6 => simp at found
  | case7 => simp [complain] at found

theorem length_readWordsBehind {lexemes rest : List Lexeme} {words : List String}
    (found : readWordsBehind lexemes = .ok (words, rest)) : rest.length < lexemes.length := by
  unfold readWordsBehind at found
  split at found
  · simp [complain] at found
  · split at found
    · simp_all
    · obtain ⟨⟨others, left⟩, read, same⟩ := map_eq_ok.mp found
      obtain ⟨_, rfl⟩ := Prod.mk.inj same
      exact Nat.lt_succ_of_lt (length_readFurtherWords read)
    · simp at found

theorem length_readWords {lexemes rest : List Lexeme} {words : List String}
    (found : readWords lexemes = .ok (words, rest)) : rest.length < lexemes.length := by
  unfold readWords at found
  split at found
  · simp [complain] at found
  · split at found
    · exact Nat.lt_succ_of_lt (length_readWordsBehind found)
    · simp at found

theorem length_readOptional {α : Type} {read : List Lexeme → Except Problem (α × List Lexeme)}
    (shortens : ∀ {lexemes rest value}, read lexemes = .ok (value, rest) →
      rest.length < lexemes.length)
    {lexemes rest : List Lexeme} {value : Option α}
    (found : readOptional read lexemes = .ok (value, rest)) : rest.length < lexemes.length := by
  unfold readOptional at found
  split at found
  · simp_all
  · obtain ⟨⟨inner, left⟩, taken, same⟩ := map_eq_ok.mp found
    obtain ⟨_, rfl⟩ := Prod.mk.inj same
    exact shortens taken

theorem length_readSetting {setting : Setting} {overrides result : Overrides}
    {lexemes rest : List Lexeme}
    (found : readSetting setting overrides lexemes = .ok (result, rest)) :
    rest.length < lexemes.length := by
  cases setting <;>
    (obtain ⟨⟨inner, left⟩, taken, same⟩ := map_eq_ok.mp found
     obtain ⟨_, rfl⟩ := Prod.mk.inj same)
  · exact length_readOptional length_readString taken
  · exact length_readOptional length_readBool taken
  · exact length_readOptional length_readWords taken
  · exact length_readOptional length_readWords taken
  · exact length_readOptional length_readWords taken

theorem length_readField {seen : List Setting} {overrides result : Overrides} {key : String}
    {lexemes rest : List Lexeme} {setting : Setting}
    (found : readField seen overrides key lexemes = .ok (setting, result, rest)) :
    rest.length < lexemes.length := by
  unfold readField at found
  cases named : settingOf seen key lexemes with
  | error problem => simp [named, bind, Except.bind] at found
  | ok _ =>
    cases colon : expectColon lexemes with
    | error problem => simp [named, colon, bind, Except.bind] at found
    | ok value =>
      have atMost : value.length ≤ lexemes.length := by
        unfold expectColon at colon
        split at colon <;> simp_all [complain]
      simp only [named, colon, bind, Except.bind] at found
      split at found
      · simp at found
      next pair taken =>
        simp only [pure, Except.pure, Except.ok.injEq, Prod.mk.injEq] at found
        rw [← found.2.2]
        exact Nat.lt_of_lt_of_le (length_readSetting taken) atMost

/-- The fields of an object behind one of them, up to the closing brace. -/
def readFurtherFields (seen : List Setting) (overrides : Overrides) :
    List Lexeme → Except Problem (Overrides × List Lexeme)
  | [] => complain .endOfObject []
  | lexeme :: rest =>
    match lexeme.symbol with
    | .closeObject => .ok (overrides, rest)
    | .comma =>
      match rest with
      | [] => complain .endOfValue []
      | key :: behind =>
        match key.symbol with
        | .string name =>
          match _found : readField seen overrides name behind with
          | .error problem => .error problem
          | .ok (setting, overrides, left) => readFurtherFields (setting :: seen) overrides left
        | .brokenString problem => .error problem
        | .closeObject => complain .trailingComma rest
        | _ => complain .keyNotString rest
    | _ => complain .expectedCommaOrBrace (lexeme :: rest)
termination_by lexemes => lexemes.length
decreasing_by
  have shorter := length_readField ‹_›
  simp only [List.length_cons] at *
  omega

/-- The fields of an object behind its opening brace. -/
def readFields : List Lexeme → Except Problem (Overrides × List Lexeme)
  | [] => complain .endOfObject []
  | key :: rest =>
    match key.symbol with
    | .closeObject => .ok ({}, rest)
    | .string name => do
      let (setting, overrides, left) ← readField [] {} name rest
      readFurtherFields [setting] overrides left
    | .brokenString problem => .error problem
    | _ => complain .keyNotString (key :: rest)

/-- Closes a list that has all its items. -/
def closeItems : List Lexeme → Except Problem (List Lexeme)
  | [] => complain .endOfList []
  | lexeme :: rest =>
    match lexeme.symbol with
    | .closeList => .ok rest
    | .comma =>
      match rest with
      | ⟨.closeList, _, _⟩ :: _ => complain .trailingComma rest
      | _ => complain .trailingCharacters rest
    | _ => complain .trailingCharacters (lexeme :: rest)

/-- The complaint that a list of settings closes after too few items. -/
def tooFew {α : Type} (count : Nat) (lexemes : List Lexeme) : Except Problem α :=
  .error ⟨.invalidLength count (wholeName ++ " with 5 elements"), leftClosingList lexemes⟩

/-- The items of a list behind its first `count`, one for each setting that is still to come. -/
def readFurtherItems (count : Nat) (overrides : Overrides) :
    List Setting → List Lexeme → Except Problem (Overrides × List Lexeme)
  | [], lexemes => (closeItems lexemes).map fun rest => (overrides, rest)
  | _ :: _, [] => complain .endOfList []
  | setting :: settings, lexeme :: rest =>
    match lexeme.symbol with
    | .closeList => tooFew count (lexeme :: rest)
    | .comma =>
      match rest with
      | [] => complain .endOfValue []
      | ⟨.closeList, _, _⟩ :: _ => complain .trailingComma rest
      | _ => do
        let (overrides, rest) ← readSetting setting overrides rest
        readFurtherItems (count + 1) overrides settings rest
    | _ => complain .expectedCommaOrBracket (lexeme :: rest)

/-- The items of a list of settings behind its opening bracket. -/
def readItems : List Lexeme → Except Problem (Overrides × List Lexeme)
  | [] => complain .endOfList []
  | ⟨.closeList, before, after⟩ :: rest => tooFew 0 (⟨.closeList, before, after⟩ :: rest)
  | lexemes => do
    let (overrides, rest) ← readSetting .dialect {} lexemes
    readFurtherItems 1 overrides [.comments, .keywords, .functions, .constants] rest

def readOverrides : List Lexeme → Except Problem (Overrides × List Lexeme)
  | [] => complain .endOfValue []
  | lexeme :: rest =>
    match lexeme.symbol with
    | .openObject => readFields rest
    | .openList => readItems rest
    | _ => .error (mismatch wholeName lexeme)

end Config.Reader

/-- The settings in a JSON text, which has nothing else in it. -/
def Overrides.ofJson (text : String) : Except Problem Overrides := do
  let (overrides, rest) ← Config.Reader.readOverrides (lexemes text.toList)
  if rest.isEmpty then return overrides
  else Config.Reader.complain .trailingCharacters rest

/-- The parser of settings in JSON. -/
def SettingsParser.json : SettingsParser := fun text =>
  (Overrides.ofJson text).mapError fun problem => (problem, problem.placeIn text.toList)

/-- The configuration that a JSON text describes. -/
def Config.ofJson : String → Except ConfigError Config := Config.load SettingsParser.json

end QueryHighlight
