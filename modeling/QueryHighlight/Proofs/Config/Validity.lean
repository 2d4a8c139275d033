import QueryHighlight.Config.Load

/-!
Where valid configurations come from. The dialects have no faulty words, a text gives a
configuration only when its words have been checked, and whether comments are recognized is no
matter of validity. A configuration from any of these builds without a second check.
-/

namespace QueryHighlight

/-- The error of a computation that fails. -/
def error? {ε α : Type} : Except ε α → Option ε
  | .error error => some error
  | .ok _ => none

section

variable {ε δ α β : Type}

theorem error?_bind (first : Except ε α) (next : α → Except ε β) :
    error? (first >>= next) = (error? first).or (first.toOption.bind fun value =>
      error? (next value)) := by
  cases first <;> rfl

theorem bind_eq_ok {first : Except ε α} {next : α → Except ε β} {result : β} :
    first >>= next = .ok result ↔ ∃ value, first = .ok value ∧ next value = .ok result := by
  cases first <;> simp [bind, Except.bind]

theorem mapError_eq_ok {change : ε → δ} {computed : Except ε α} {result : α} :
    computed.mapError change = .ok result ↔ computed = .ok result := by
  cases computed with
  | error error => constructor <;> intro same <;> cases same
  | ok value => constructor <;> intro same <;> cases same <;> rfl

end

namespace Config

theorem error?_validate (config : Config) : error? config.validate = config.firstFault? := by
  unfold validate
  split
  next found => exact found.symm
  next none => exact none.symm

theorem validate_eq_ok {config : Config} :
    config.validate = .ok () ↔ config.firstFault? = none := by
  rw [← error?_validate]
  cases config.validate <;> simp [error?]

end Config

namespace Overrides

variable {overrides : Overrides} {config : Config}

theorem validConfig_eq_ok :
    overrides.validConfig = .ok config ↔
      overrides.config = .ok config ∧ config.firstFault? = none := by
  rw [validConfig, bind_eq_ok]
  constructor
  · rintro ⟨other, chosen, checked⟩
    obtain ⟨_, valid, same⟩ := bind_eq_ok.mp checked
    obtain rfl := Except.ok.inj same
    exact ⟨chosen, Config.validate_eq_ok.mp valid⟩
  · rintro ⟨chosen, valid⟩
    exact ⟨config, chosen, bind_eq_ok.mpr ⟨(), Config.validate_eq_ok.mpr valid, rfl⟩⟩

end Overrides

theorem Config.firstFault?_of_load {parse : SettingsParser} {text : String} {config : Config}
    (read : Config.load parse text = .ok config) : config.firstFault? = none := by
  unfold load at read
  split at read
  next => cases read
  next settings _ => exact (Overrides.validConfig_eq_ok.mp (mapError_eq_ok.mp read)).2

end QueryHighlight
