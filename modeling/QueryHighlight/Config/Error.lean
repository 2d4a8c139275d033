import QueryHighlight.Config.Basic
import QueryHighlight.Json.Problem

/-!
Why a text gives no configuration.
-/

namespace QueryHighlight
open Json

/-- The text cannot be read, or what it says is refused. -/
inductive ConfigError where
  | malformed (problem : Problem) (place : Text.Place)
  | refused (refusal : Refusal)
  deriving DecidableEq, Repr

namespace ConfigError

/-- What is wrong, without the place. -/
def summary : ConfigError → String
  | .malformed problem _ => "invalid config: " ++ problem.cause.message
  | .refused refusal => refusal.message

def message : ConfigError → String
  | .malformed problem place => summary (.malformed problem place) ++ " at " ++ place.text
  | .refused refusal => refusal.message

end ConfigError

end QueryHighlight
