import QueryHighlight.Config.Reader
import QueryHighlight.Proofs.Config.Validity
import QueryHighlight.Proofs.WordSet.Walk
import QueryHighlight.Text.Ranges

/-!
Which configurations are refused, and what for. A verdict is about the words that the sets have and
about nothing else, so neither the order in which words came in nor how often they did has any part
in it. The sets are judged one after the other; in the first with a faulty word an empty word is
what it is refused for, and otherwise the least word with white space. A walk over the sets that
stops at the first faulty word finds the same when it takes the words of each set sorted.
-/

namespace QueryHighlight
open Text

/-- The code points with the Unicode property White_Space. -/
def whiteSpace : Ranges :=
  [(0x0009, 0x000d), (0x0020, 0x0020), (0x0085, 0x0085), (0x00a0, 0x00a0), (0x1680, 0x1680),
    (0x2000, 0x200a), (0x2028, 0x2029), (0x202f, 0x202f), (0x205f, 0x205f), (0x3000, 0x3000)]

def HasWhiteSpace (word : String) : Prop := ∃ c ∈ word.toList, whiteSpace.has c = true

def IsFaulty (word : String) : Prop := word = "" ∨ HasWhiteSpace word

/-- Place of a set among the sets as they are judged. -/
def WordRole.rank : WordRole → Nat
  | .keywords => 0
  | .functions => 1
  | .constants => 2

/-- What a set with the given words is refused for: the empty word if it has it, else the least
word with white space. -/
inductive Refuses (role : WordRole) (has : String → Prop) : Refusal → Prop
  | emptyWord (member : has "") : Refuses role has (.emptyWord role)
  | spacedWord {word : String} (noEmpty : ¬has "") (member : has word) (spaced : HasWhiteSpace word)
      (least : ∀ other, has other → HasWhiteSpace other → utf8 word ≤ utf8 other) :
      Refuses role has (.spacedWord role word)

/-- What there is to say about sets with the given words. -/
inductive WordVerdict (has : WordRole → String → Prop) : Except Refusal Unit → Prop
  | accepted (sound : ∀ role word, has role word → ¬IsFaulty word) : WordVerdict has (.ok ())
  | refused {role : WordRole} {refusal : Refusal}
      (first : ∀ other, other.rank < role.rank → ∀ word, has other word → ¬IsFaulty word)
      (refuses : Refuses role (has role) refusal) : WordVerdict has (.error refusal)

/-- Judges word by word, the words of each set in the given order, up to the first faulty one. -/
def validateAlong (words : WordRole → List String) : Except Refusal Unit :=
  [WordRole.keywords, .functions, .constants].forM fun role =>
    (words role).forM fun word =>
      match Config.fault? role word with
      | some refusal => .error refusal
      | none => .ok ()

/-- A loop that may fail ends with the first error. -/
theorem error?_forM {ε α : Type} (check : α → Except ε Unit) (items : List α) :
    error? (items.forM check) = items.findSome? fun item => error? (check item) := by
  induction items with
  | nil => rfl
  | cons first rest ih =>
    have unfolded : (first :: rest).forM check = check first >>= fun _ => rest.forM check := rfl
    rw [unfolded, error?_bind, List.findSome?_cons, ih]
    cases check first with
    | error error => rfl
    | ok value => exact Option.none_or

/-- A check that succeeds says nothing but that. -/
theorem eq_of_error? {ε : Type} {first second : Except ε Unit}
    (same : error? first = error? second) : first = second := by
  cases first with
  | error error =>
    cases second with
    | error other => exact congrArg Except.error (Option.some.inj same)
    | ok value => cases same
  | ok value =>
    cases second with
    | error other => cases same
    | ok other => rfl

/-- Where an item of an ordered list stands next to a given one. -/
theorem mem_before_or_behind {α : Type} {precedes : α → α → Prop} {before after : List α}
    {item other : α} (ordered : (before ++ item :: after).Pairwise precedes)
    (member : other ∈ before ++ item :: after) :
    other ∈ before ∨ other = item ∨ precedes item other := by
  obtain ⟨-, fromItem, -⟩ := List.pairwise_append.mp ordered
  refine (List.mem_append.mp member).imp_right fun later => ?_
  exact (List.mem_cons.mp later).imp_right ((List.pairwise_cons.mp fromItem).1 other)

theorem isSpace_eq_has (c : Char) : isSpace c = whiteSpace.has c := by
  rw [Bool.eq_iff_iff]
  simp only [isSpace, Ranges.has, whiteSpace, List.any_cons, List.any_nil, Bool.or_false,
    Bool.or_eq_true, Bool.and_eq_true, beq_iff_eq, decide_eq_true_eq, Char.le_def,
    UInt32.le_iff_toNat_le, ← Char.val_inj, ← UInt32.toNat_inj, UInt32.reduceToNat, Char.reduceVal,
    Char.toNat]
  omega

theorem any_isSpace_iff {word : String} :
    word.toList.any isSpace = true ↔ HasWhiteSpace word := by
  rw [List.any_eq_true, HasWhiteSpace]
  simp only [isSpace_eq_has]

theorem fault?_eq_none {role : WordRole} {word : String} :
    Config.fault? role word = none ↔ ¬IsFaulty word := by
  rw [Config.fault?, IsFaulty, ← any_isSpace_iff, ← String.isEmpty_iff]
  split
  next empty => simp [empty]
  next nonempty => split <;> simp_all

section Sets

variable {role : WordRole} {has : String → Prop} {refusal other : Refusal}

theorem Refuses.exists_faulty (refuses : Refuses role has refusal) :
    ∃ word, has word ∧ IsFaulty word := by
  cases refuses with
  | emptyWord member => exact ⟨"", member, .inl rfl⟩
  | spacedWord _ member spaced => exact ⟨_, member, .inr spaced⟩

theorem Refuses.unique (refuses : Refuses role has refusal) (also : Refuses role has other) :
    refusal = other := by
  cases refuses with
  | emptyWord member =>
    cases also with
    | emptyWord => rfl
    | spacedWord noEmpty => exact absurd member noEmpty
  | spacedWord noEmpty member spaced least =>
    cases also with
    | emptyWord empty => exact absurd empty noEmpty
    | spacedWord _ present alsoSpaced atLeast =>
      have below := utf8_le_iff.mp (least _ present alsoSpaced)
      have above := utf8_le_iff.mp (atLeast _ member spaced)
      rw [String.le_antisymm below above]

/-- The first faulty word of an ascending list is what the list is refused for. -/
theorem refuses_of_findSome? {words : List String} (ascending : words.Pairwise (· < ·))
    (found : words.findSome? (Config.fault? role) = some refusal) :
    Refuses role (· ∈ words) refusal := by
  obtain ⟨before, word, after, rfl, faulty, sound⟩ := List.findSome?_eq_some_iff.mp found
  have soundBefore : ∀ other ∈ before, ¬IsFaulty other := fun other member =>
    fault?_eq_none.mp (sound other member)
  have present : word ∈ before ++ word :: after := by simp
  -- Faulty words other than this one stand behind it, where the words are greater.
  have least {other : String} (member : other ∈ before ++ word :: after) (wrong : IsFaulty other) :
      word ≤ other := by
    rcases mem_before_or_behind ascending member with earlier | rfl | greater
    · exact absurd wrong (soundBefore other earlier)
    · exact Std.le_refl _
    · exact Std.le_of_lt greater
  rw [Config.fault?] at faulty
  split at faulty
  next empty =>
    obtain rfl := String.isEmpty_iff.mp empty
    obtain rfl := Option.some.inj faulty
    exact .emptyWord present
  next nonempty =>
    obtain ⟨spaced, same⟩ := Option.ite_none_right_eq_some.mp faulty
    obtain rfl := Option.some.inj same
    refine .spacedWord ?_ present (any_isSpace_iff.mp spaced) ?_
    · intro member
      have atMost : word ≤ "" := least member (.inl rfl)
      have atLeast : "" ≤ word :=
        String.not_lt.mp fun less => List.not_lt_nil _ (String.lt_iff.mp less)
      exact nonempty (String.isEmpty_iff.mpr (String.le_antisymm atMost atLeast))
    · intro other member alsoSpaced
      exact utf8_le_iff.mpr (least member (.inr alsoSpaced))

end Sets

section Roles

variable {has : WordRole → String → Prop}

theorem mem_roles (role : WordRole) : role ∈ [WordRole.keywords, .functions, .constants] := by
  cases role <;> decide

theorem ranked_roles :
    [WordRole.keywords, .functions, .constants].Pairwise fun first second =>
      first.rank < second.rank := by decide

theorem WordRole.rank_injective : Function.Injective WordRole.rank := by
  intro first second same
  cases first <;> cases second <;> first | rfl | cases same

/-- There is one verdict at most. -/
theorem WordVerdict.unique {result other : Except Refusal Unit} (verdict : WordVerdict has result)
    (also : WordVerdict has other) : result = other := by
  cases verdict with
  | accepted sound =>
    cases also with
    | accepted => rfl
    | refused _ refuses =>
      obtain ⟨word, member, faulty⟩ := refuses.exists_faulty
      exact absurd faulty (sound _ word member)
  | @refused role refusal first refuses =>
    obtain ⟨word, member, faulty⟩ := refuses.exists_faulty
    cases also with
    | accepted sound => exact absurd faulty (sound _ word member)
    | @refused other otherRefusal otherFirst otherRefuses =>
      obtain ⟨otherWord, otherMember, otherFaulty⟩ := otherRefuses.exists_faulty
      rcases Nat.lt_trichotomy role.rank other.rank with before | same | behind
      · exact absurd faulty (otherFirst role before word member)
      · obtain rfl := WordRole.rank_injective same
        rw [refuses.unique otherRefuses]
      · exact absurd otherFaulty (first other behind otherWord otherMember)

end Roles

namespace Config

theorem verdict_validate (config : Config) :
    WordVerdict (fun role word => (config.words role).contains word = true) config.validate := by
  simp only [WordSet.contains_iff_mem]
  unfold validate
  split
  next refusal found =>
    obtain ⟨before, role, after, split, faulty, sound⟩ := List.findSome?_eq_some_iff.mp found
    refine .refused ?_ (refuses_of_findSome? (config.words role).ascending faulty)
    intro other lower word member
    -- The set is judged before, since neither the refused one nor those behind it are lower.
    have earlier : other ∈ before := by
      rcases mem_before_or_behind (split ▸ ranked_roles) (split ▸ mem_roles other) with
        earlier | rfl | higher
      · exact earlier
      · exact absurd lower (Nat.lt_irrefl _)
      · exact absurd lower (Nat.lt_asymm higher)
    exact fault?_eq_none.mp (List.findSome?_eq_none_iff.mp (sound other earlier) word member)
  next none =>
    refine .accepted fun role word member => ?_
    have sound := List.findSome?_eq_none_iff.mp none role (mem_roles role)
    exact fault?_eq_none.mp (List.findSome?_eq_none_iff.mp sound word member)

theorem error?_validateAlong (words : WordRole → List String) :
    error? (validateAlong words) =
      [WordRole.keywords, .functions, .constants].findSome? fun role =>
        (words role).findSome? (fault? role) := by
  have judged (role : WordRole) (word : String) :
      error? (match fault? role word with
        | some refusal => (.error refusal : Except Refusal Unit)
        | none => .ok ()) = fault? role word := by
    cases fault? role word <;> rfl
  unfold validateAlong
  rw [error?_forM]
  simp only [error?_forM, judged]

/-- It does not matter in which order the sets are walked over, when the words are sorted. -/
theorem validateAlong_sorted {config : Config} (walks : (role : WordRole) → (config.words role).Walk)
    {sorted : WordRole → List String}
    (sorting : ∀ role, IsSorting id (walks role).words (sorted role)) :
    validateAlong sorted = config.validate := by
  apply eq_of_error?
  rw [error?_validateAlong, error?_validate, firstFault?]
  simp only [(walks _).eq_words (sorting _), WordSet.toList]

/-- What a configuration is refused for is settled by the words of its sets: not by how the sets
came about and not by how they are walked over. Only a configuration that is not refused builds, and
a text never gives one that is, whoever parses it. -/
theorem validate_eq_iff_verdict (config : Config) :
    (∀ result, config.validate = result ↔
      WordVerdict (fun role word => (config.words role).contains word = true) result) ∧
    (∀ inserted : WordRole → List String,
      (∀ role, config.words role = .ofList (inserted role)) →
        ∀ result, config.validate = result ↔
          WordVerdict (fun role word => word ∈ inserted role) result) ∧
    (∀ (walks : (role : WordRole) → (config.words role).Walk) (sorted : WordRole → List String),
      (∀ role, IsSorting id (walks role).words (sorted role)) →
        validateAlong sorted = config.validate) ∧
    config.build = config.validate.map (fun _ => config.tokenizer) ∧
    ∀ (parse : SettingsParser) (text : String),
      load parse text = .ok config → config.validate = .ok () := by
  have judged (result : Except Refusal Unit) : config.validate = result ↔
      WordVerdict (fun role word => (config.words role).contains word = true) result :=
    ⟨fun same => same ▸ config.verdict_validate, config.verdict_validate.unique⟩
  refine ⟨judged, ?_, fun walks _ => validateAlong_sorted walks, ?_, ?_⟩
  · intro inserted made result
    rw [judged]
    simp only [made, WordSet.contains_ofList, List.contains_iff_mem]
  · rw [build]
    cases config.validate <;> rfl
  · intro parse text loaded
    exact validate_eq_ok.mpr (firstFault?_of_load loaded)

/-- The empty word comes in between two spaced words of its set, one of them given twice, and the
set is not the last with a faulty word. The walks are backwards. -/
theorem validate_eq_iff_verdict_backwards :
    let inserted : WordRole → List String
      | .keywords => ["order", "by", "order"]
      | .functions => ["b c", "", "a b", "b c"]
      | .constants => ["\u2003"]
    let config : Config :=
      ⟨true, .ofList (inserted .keywords), .ofList (inserted .functions),
        .ofList (inserted .constants)⟩
    let sorted (role : WordRole) : List String := (config.words role).words
    config.validate = .error (.emptyWord .functions) ∧
      WordVerdict (fun role word => word ∈ inserted role) (.error (.emptyWord .functions)) ∧
      (∀ role, IsSorting id (WordSet.Walk.backwards (config.words role)).words (sorted role)) ∧
      validateAlong sorted = config.validate ∧
      ofJson "\x7b\"functions\":[\"\u00e9\",\"f\"]\x7d" =
        .ok { ofDialect default with functions := .ofList ["f", "\u00e9"] } ∧
      { ofDialect default with functions := .ofList ["f", "\u00e9"] }.validate = .ok () := by
  intro inserted config sorted
  have made (role : WordRole) : config.words role = .ofList (inserted role) := by
    cases role <;> rfl
  have refused : config.validate = .error (.emptyWord .functions) := by decide +kernel
  have sorting (role : WordRole) :
      IsSorting id (WordSet.Walk.backwards (config.words role)).words (sorted role) :=
    ⟨(WordSet.Walk.backwards _).perm.symm, (config.words role).ordered⟩
  obtain ⟨-, bare, along, -, -⟩ := validate_eq_iff_verdict config
  have read : ofJson "\x7b\"functions\":[\"\u00e9\",\"f\"]\x7d" =
      .ok { ofDialect default with functions := .ofList ["f", "\u00e9"] } := by decide +kernel
  exact ⟨refused, (bare inserted made _).mp refused, sorting, along _ sorted sorting, read,
    (validate_eq_iff_verdict _).2.2.2.2 .json _ read⟩

end Config

end QueryHighlight
