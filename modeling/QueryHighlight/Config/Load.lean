import QueryHighlight.Config.Error
import QueryHighlight.Config.Overrides

/-!
Configurations loaded from texts. How settings are written in a text is the business of a parser,
which is given; what becomes of settings that have been read is decided here, and it is the same for
every parser.
-/

namespace QueryHighlight

/-- Reads the settings in a text, or tells what is wrong with the text and where. -/
abbrev SettingsParser := String → Except (Json.Problem × Text.Place) Overrides

/-- The configuration that a text describes. -/
def Config.load (parse : SettingsParser) (text : String) : Except ConfigError Config :=
  match parse text with
  | .error (problem, place) => .error (.malformed problem place)
  | .ok settings => settings.validConfig.mapError .refused

end QueryHighlight
