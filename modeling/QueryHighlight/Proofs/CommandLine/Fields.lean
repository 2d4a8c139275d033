import Mathlib.Data.List.Basic
import QueryHighlight.CommandLine.Options

/-!
What an argument is about, told by how it begins. Every argument sets one field of the options or
is unknown. Two options never begin alike, and what names an input begins like no option, so the
order in which the kinds are told apart does not matter.
-/

namespace QueryHighlight.CommandLine

/-- The parts of the options that arguments set. -/
inductive Field where
  | input
  | dialect
  | config
  | comments
  | color
  deriving DecidableEq, Repr

def begins (option text : String) : Bool := option.toList.isPrefixOf text.toList

/-- An argument sets a field, to something that makes sense or not. -/
def Field.isSetBy : Field → String → Bool
  | .input, text => text == "-" || !begins "-" text
  | .dialect, text => begins "--dialect=" text
  | .config, text => begins "--config=" text
  | .comments, text => text == "--comments" || text == "--no-comments"
  | .color, text => begins "--color=" text

/-- How an argument is written that says what it does. -/
inductive Spells : String → Argument → Prop
  | dialect (name : String) : Spells ("--dialect=" ++ name) (.dialect name)
  | config (path : String) : Spells ("--config=" ++ path) (.config path)
  | color (mode : String) : Spells ("--color=" ++ mode) (.color mode)
  | comments : Spells "--comments" (.comments true)
  | noComments : Spells "--no-comments" (.comments false)
  | input {text : String} (isInput : Field.input.isSetBy text) : Spells text (.input text)
  | unknown {text : String} (setsNone : ∀ field : Field, field.isSetBy text = false) :
      Spells text (.unknown text)

/-- The field that an argument sets. -/
def Argument.field? : Argument → Option Field
  | .dialect _ => some .dialect
  | .config _ => some .config
  | .color _ => some .color
  | .comments _ => some .comments
  | .input _ => some .input
  | .unknown _ => none

theorem begins_iff {option text : String} :
    begins option text = true ↔ ∃ value, text = option ++ value := by
  rw [begins, List.isPrefixOf_iff_prefix]
  constructor
  · rintro ⟨rest, same⟩
    refine ⟨String.ofList rest, String.toList_inj.mp ?_⟩
    rw [String.toList_append, String.toList_ofList, same]
  · rintro ⟨value, rfl⟩
    rw [String.toList_append]
    exact List.prefix_append _ _

theorem behind?_eq_some {letters text rest : List Char} :
    behind? letters text = some rest ↔ text = letters ++ rest := by
  induction letters generalizing text with
  | nil => simp [behind?]
  | cons letter letters ih =>
    cases text with
    | nil => simp [behind?]
    | cons c text =>
      rw [behind?, Option.ite_none_right_eq_some, ih, List.cons_append, List.cons.injEq]

theorem valueOf?_eq_some {option text value : String} :
    valueOf? option text = some value ↔ text = option ++ value := by
  rw [valueOf?, Option.map_eq_some_iff, ← String.toList_inj, String.toList_append]
  constructor
  · rintro ⟨rest, found, rfl⟩
    rw [behind?_eq_some.mp found, String.toList_ofList]
  · intro same
    exact ⟨value.toList, behind?_eq_some.mpr same, String.ofList_toList⟩

theorem valueOf?_eq_none {option text : String} (found : valueOf? option text = none) :
    begins option text = false := by
  apply Bool.eq_false_iff.mpr
  intro known
  obtain ⟨value, same⟩ := begins_iff.mp known
  rw [valueOf?_eq_some.mpr same] at found
  cases found

theorem begins_dash {text : String} : begins "-" text = true ↔ text.toList.head? = some '-' := by
  rw [begins, String.toList_ofList]
  cases text.toList with
  | nil => simp
  | cons c rest =>
    rw [List.head?_cons, List.isPrefixOf_cons_cons, Bool.and_eq_true, beq_iff_eq, Option.some_inj]
    simp [eq_comm]

theorem not_isSetBy_input_append {option : String} (dashes : ∃ rest, option.toList = '-' :: '-' :: rest)
    (value : String) : Field.input.isSetBy (option ++ value) = false := by
  obtain ⟨rest, same⟩ := dashes
  have begun : begins "-" (option ++ value) = true := by
    rw [begins_dash, String.toList_append, same]
    rfl
  have longer : option ++ value ≠ "-" := by
    intro alone
    have chars := congrArg String.toList alone
    rw [String.toList_append, same] at chars
    simp at chars
  rw [Field.isSetBy, beq_false_of_ne longer, begun]
  rfl

theorem spells_ofText (text : String) : Spells text (.ofText text) := by
  unfold Argument.ofText
  split
  next name found => exact valueOf?_eq_some.mp found ▸ .dialect name
  next path _ found => exact valueOf?_eq_some.mp found ▸ .config path
  next mode _ _ found => exact valueOf?_eq_some.mp found ▸ .color mode
  next noDialect noConfig noColor =>
    split
    next same => exact same ▸ .comments
    next noSwitch =>
      split
      next same => exact same ▸ .noComments
      next noOther =>
        split
        next isInput =>
          refine .input ?_
          rw [Field.isSetBy, Bool.or_eq_true, beq_iff_eq, Bool.not_eq_true', Bool.eq_false_iff,
            Ne, begins_dash]
          exact isInput
        next noInput =>
          refine .unknown fun field => ?_
          obtain ⟨notAlone, dash⟩ := not_or.mp noInput
          have dashed : begins "-" text = true := begins_dash.mpr (not_not.mp dash)
          cases field with
          | input => rw [Field.isSetBy, beq_false_of_ne notAlone, dashed]; rfl
          | dialect => exact valueOf?_eq_none noDialect
          | config => exact valueOf?_eq_none noConfig
          | color => exact valueOf?_eq_none noColor
          | comments => rw [Field.isSetBy, beq_false_of_ne noSwitch, beq_false_of_ne noOther]; rfl

theorem Spells.isSetBy {text : String} {argument : Argument} {field : Field}
    (spelled : Spells text argument) (sets : argument.field? = some field) :
    field.isSetBy text = true := by
  cases spelled with
  | dialect | config | color =>
    obtain rfl := Option.some.inj sets
    exact begins_iff.mpr ⟨_, rfl⟩
  | comments | noComments =>
    obtain rfl := Option.some.inj sets
    decide
  | input isInput => exact Option.some.inj sets ▸ isInput
  | unknown => cases sets

/-- An argument sets the field that it is about, and no other. -/
theorem field?_ofText {text : String} {field : Field} :
    (Argument.ofText text).field? = some field ↔ field.isSetBy text = true := by
  refine ⟨(spells_ofText text).isSetBy, fun known => ?_⟩
  cases field with
  | dialect | config | color =>
    obtain ⟨value, rfl⟩ := begins_iff.mp known
    simp [Argument.ofText, valueOf?, behind?, Argument.field?]
  | comments =>
    rcases Bool.or_eq_true_iff.mp known with same | same <;>
      simp [eq_of_beq same, Argument.ofText, valueOf?, behind?, Argument.field?]
  | input =>
    generalize found : Argument.ofText text = argument
    have spelled := found ▸ spells_ofText text
    cases spelled with
    | input => rfl
    | unknown setsNone => rw [setsNone] at known; cases known
    | dialect | config | color =>
      rw [not_isSetBy_input_append ⟨_, rfl⟩] at known
      cases known
    | comments | noComments => revert known; decide

/-- How an argument is written decides what it says. -/
theorem ofText_of_spells {text : String} {argument : Argument} (spelled : Spells text argument) :
    Argument.ofText text = argument := by
  cases spelled with
  | dialect | config | color => simp [Argument.ofText, valueOf?, behind?]
  | comments | noComments => simp [Argument.ofText, valueOf?, behind?]
  | input isInput =>
    have about := field?_ofText.mpr isInput
    have spelled := spells_ofText text
    generalize Argument.ofText text = argument at about spelled
    cases spelled with
    | input => rfl
    | _ => cases about
  | unknown setsNone =>
    have about (field : Field) : (Argument.ofText text).field? ≠ some field := by
      rw [Ne, field?_ofText, setsNone field]
      exact Bool.false_ne_true
    have spelled := spells_ofText text
    generalize Argument.ofText text = argument at about spelled
    cases spelled with
    | unknown => rfl
    | _ => exact absurd rfl (about _)

end QueryHighlight.CommandLine
