import QueryHighlight.Config.Basic

/-!
The settings that a host or a file may give. Each of them is optional; what is missing comes from
the dialect, and a dialect that is not named is the current one.
-/

namespace QueryHighlight

structure Overrides where
  dialect : Option String := none
  comments : Option Bool := none
  keywords : Option (List String) := none
  functions : Option (List String) := none
  constants : Option (List String) := none
  deriving DecidableEq, Repr

namespace Overrides

/-- A configuration with everything replaced that is given. -/
def applyTo (overrides : Overrides) (config : Config) : Config where
  comments := overrides.comments.getD config.comments
  keywords := (overrides.keywords.map WordSet.ofList).getD config.keywords
  functions := (overrides.functions.map WordSet.ofList).getD config.functions
  constants := (overrides.constants.map WordSet.ofList).getD config.constants

/-- The dialect's configuration with the given settings; only the dialect is checked. -/
def config (overrides : Overrides) : Except Refusal Config := do
  let dialect ← match overrides.dialect with
    | some name => Dialect.ofName name
    | none => .ok default
  return overrides.applyTo (.ofDialect dialect)

/-- The same, with the words checked too. -/
def validConfig (overrides : Overrides) : Except Refusal Config := do
  let config ← overrides.config
  config.validate
  return config

end Overrides

end QueryHighlight
