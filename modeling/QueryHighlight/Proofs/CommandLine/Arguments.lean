import QueryHighlight.Proofs.CommandLine.Fields
import QueryHighlight.Proofs.Config.Validity

/-!
How arguments are judged as a whole. The first faulty one from the left is what is complained about,
whatever stands behind it; without one, a dialect and a configuration file exclude each other; and
otherwise every option is what the last argument that sets it says. So only the order among
arguments for the same option matters.
-/

namespace QueryHighlight.CommandLine

/-- What is wrong with an argument behind others. -/
inductive Fault (earlier : List String) : String → Error → Prop
  | dialect {name : String} (unknown : name ∉ ["massmailer", "mailing"]) :
      Fault earlier ("--dialect=" ++ name) (.config (.refused (.unknownDialect name)))
  | color {mode : String} (unknown : mode ∉ ["auto", "always", "never"]) :
      Fault earlier ("--color=" ++ mode) (.invalidColor mode)
  | option {text : String} (dash : begins "-" text = true)
      (noName : text ∉ ["-", "--comments", "--no-comments"])
      (noValue : ∀ option ∈ ["--dialect=", "--config=", "--color="], begins option text = false) :
      Fault earlier text (.unknownOption text)
  | input {text : String} (isInput : Field.input.isSetBy text = true)
      (again : ∃ other ∈ earlier, Field.input.isSetBy other = true) :
      Fault earlier text (.extraInput text)

/-- No argument is faulty where it stands. -/
def Faultless (arguments : List String) : Prop :=
  ∀ earlier text later, arguments = earlier ++ text :: later → ∀ error, ¬Fault earlier text error

/-- The last argument that sets a field. -/
def lastSetting (field : Field) (arguments : List String) : Option String :=
  (arguments.filter field.isSetBy).getLast?

/-- Every option is what the last argument that sets it says, and the input is the only argument
that names one. -/
structure Options.IsReadFrom (options : Options) (arguments : List String) : Prop where
  input : arguments.filter Field.input.isSetBy = options.input.toList
  dialect : lastSetting .dialect arguments = options.dialect.map fun dialect =>
    "--dialect=" ++ dialect.name
  config : lastSetting .config arguments = options.config.map fun path => "--config=" ++ path
  comments : lastSetting .comments arguments = options.comments.map fun enabled =>
    if enabled then "--comments" else "--no-comments"
  color : (lastSetting .color arguments).getD "--color=auto" = "--color=" ++ options.color.name

/-- Some argument sets a dialect, and some argument names a configuration file. -/
def SetsBoth (arguments : List String) : Prop :=
  (∃ text ∈ arguments, Field.dialect.isSetBy text = true) ∧
    ∃ text ∈ arguments, Field.config.isSetBy text = true

/-- What there is to say about arguments. -/
inductive Verdict (arguments : List String) : Except Error Options → Prop
  | faulty {earlier later : List String} {text : String} {error : Error}
      (split : arguments = earlier ++ text :: later) (faultless : Faultless earlier)
      (fault : Fault earlier text error) : Verdict arguments (.error error)
  | conflicting (faultless : Faultless arguments) (both : SetsBoth arguments) :
      Verdict arguments (.error .conflictingOptions)
  | accepted {options : Options} (faultless : Faultless arguments) (free : ¬SetsBoth arguments)
      (read : options.IsReadFrom arguments) : Verdict arguments (.ok options)

/-- The same arguments, and those that set the same field in the same order. -/
structure IsReordering (arguments other : List String) : Prop where
  perm : arguments.Perm other
  sameOrder : ∀ field : Field, arguments.filter field.isSetBy = other.filter field.isSetBy

variable {arguments earlier later : List String} {options next : Options} {text : String}
  {error : Error}

section Names

variable {α : Type} {all : List α} {nameOf : α → String} {name : String}

theorem find?_name_eq_none :
    all.find? (fun item => nameOf item == name) = none ↔ name ∉ all.map nameOf := by
  rw [List.find?_eq_none, List.mem_map]
  simp

theorem nameOf_of_find? {item : α} (found : all.find? (fun item => nameOf item == name) = some item) :
    nameOf item = name := by
  have accepted := List.find?_some found
  exact eq_of_beq accepted

end Names

theorem ofName_eq_error {name : String} {refusal : Refusal} :
    Dialect.ofName name = .error refusal ↔
      name ∉ ["massmailer", "mailing"] ∧ refusal = .unknownDialect name := by
  have unknown : Dialect.ofName? name = none ↔ name ∉ ["massmailer", "mailing"] :=
    find?_name_eq_none
  rw [← unknown, Dialect.ofName]
  cases Dialect.ofName? name <;> simp [eq_comm]

theorem ofName_eq_ok {name : String} {dialect : Dialect} (known : Dialect.ofName name = .ok dialect) :
    dialect.name = name := by
  unfold Dialect.ofName at known
  split at known
  next found => exact Except.ok.inj known ▸ nameOf_of_find? found
  next => cases known

theorem not_isSetBy_of_option (dash : begins "-" text = true)
    (noName : text ∉ ["-", "--comments", "--no-comments"])
    (noValue : ∀ option ∈ ["--dialect=", "--config=", "--color="], begins option text = false)
    (field : Field) : field.isSetBy text = false := by
  simp only [List.mem_cons, List.not_mem_nil, or_false, not_or] at noName
  obtain ⟨notAlone, noSwitch, noOther⟩ := noName
  cases field with
  | input => rw [Field.isSetBy, beq_false_of_ne notAlone, dash]; rfl
  | comments => rw [Field.isSetBy, beq_false_of_ne noSwitch, beq_false_of_ne noOther]; rfl
  | dialect | config | color => exact noValue _ (by simp)

theorem isSome_input (read : options.IsReadFrom earlier) :
    options.input.isSome = true ↔ ∃ other ∈ earlier, Field.input.isSetBy other = true := by
  have listed := read.input
  cases named : options.input with
  | none =>
    rw [named, Option.toList_none, List.filter_eq_nil_iff] at listed
    simpa using listed
  | some name =>
    have member : name ∈ earlier.filter Field.input.isSetBy := by
      rw [listed, named]
      exact List.mem_singleton.mpr rfl
    exact iff_of_true rfl ⟨name, List.mem_filter.mp member⟩

/-- Behind arguments that have been read, one is refused exactly if it is faulty there. -/
theorem apply_eq_error (read : options.IsReadFrom earlier) :
    options.apply (.ofText text) = .error error ↔ Fault earlier text error := by
  constructor
  · intro refused
    have spelled := spells_ofText text
    generalize Argument.ofText text = argument at refused spelled
    cases spelled with
    | dialect name =>
      simp only [Options.apply] at refused
      split at refused
      next => cases refused
      next found =>
        obtain ⟨unknown, rfl⟩ := ofName_eq_error.mp found
        exact Except.error.inj refused ▸ .dialect unknown
    | config | comments | noComments => cases refused
    | color mode =>
      simp only [Options.apply] at refused
      split at refused
      next => cases refused
      next unknown => exact Except.error.inj refused ▸ .color (find?_name_eq_none.mp unknown)
    | input isInput =>
      simp only [Options.apply] at refused
      split at refused
      next named => exact Except.error.inj refused ▸ .input isInput ((isSome_input read).mp named)
      next => cases refused
    | unknown setsNone =>
      refine Except.error.inj refused ▸ .option ?_ ?_ ?_
      · have noInput := setsNone .input
        rw [Field.isSetBy, Bool.or_eq_false_iff] at noInput
        simpa using noInput.2
      · have noInput := setsNone .input
        have noSwitch := setsNone .comments
        rw [Field.isSetBy, Bool.or_eq_false_iff, beq_eq_false_iff_ne] at noInput
        rw [Field.isSetBy, Bool.or_eq_false_iff, beq_eq_false_iff_ne, beq_eq_false_iff_ne] at noSwitch
        simp [noInput.1, noSwitch.1, noSwitch.2]
      · simp only [List.forall_mem_cons]
        refine ⟨setsNone .dialect, setsNone .config, setsNone .color, ?_⟩
        exact List.forall_mem_nil _
  · rintro (unknown | unknown | ⟨dash, noName, noValue⟩ | ⟨isInput, again⟩)
    · rw [ofText_of_spells (.dialect _), Options.apply, ofName_eq_error.mpr ⟨unknown, rfl⟩]
    · rw [ofText_of_spells (.color _), Options.apply]
      have refused : ColorMode.ofName? _ = none := find?_name_eq_none.mpr unknown
      rw [refused]
    · rw [ofText_of_spells (.unknown (not_isSetBy_of_option dash noName noValue))]
      rfl
    · rw [ofText_of_spells (.input isInput), Options.apply, if_pos ((isSome_input read).mpr again)]

theorem lastSetting_append (field : Field) (earlier : List String) (text : String) :
    lastSetting field (earlier ++ [text]) =
      if (Argument.ofText text).field? = some field then some text
      else lastSetting field earlier := by
  rw [lastSetting, List.filter_append]
  split
  next about =>
    rw [List.filter_cons_of_pos (field?_ofText.mp about), List.filter_nil, List.getLast?_concat]
  next other =>
    rw [List.filter_cons_of_neg (mt field?_ofText.mpr other), List.filter_nil, List.append_nil]
    rfl

theorem filter_input_append (earlier : List String) (text : String) :
    (earlier ++ [text]).filter Field.input.isSetBy =
      if (Argument.ofText text).field? = some .input then
        earlier.filter Field.input.isSetBy ++ [text]
      else earlier.filter Field.input.isSetBy := by
  rw [List.filter_append]
  split
  next about => rw [List.filter_cons_of_pos (field?_ofText.mp about), List.filter_nil]
  next other =>
    rw [List.filter_cons_of_neg (mt field?_ofText.mpr other), List.filter_nil, List.append_nil]

/-- An argument that is not refused changes its own option and leaves the others. -/
theorem Options.IsReadFrom.apply (read : options.IsReadFrom earlier)
    (applied : options.apply (.ofText text) = .ok next) : next.IsReadFrom (earlier ++ [text]) := by
  have spelled := spells_ofText text
  have settings (field : Field) := lastSetting_append field earlier text
  have inputs := filter_input_append earlier text
  generalize Argument.ofText text = argument at applied spelled settings inputs
  obtain ⟨input, dialect, config, comments, color⟩ := read
  cases spelled with
  | dialect name =>
    simp only [Options.apply] at applied
    split at applied
    next found =>
      obtain rfl := Except.ok.inj applied
      constructor <;> simp_all [Argument.field?, ofName_eq_ok found]
    next => cases applied
  | color mode =>
    simp only [Options.apply] at applied
    split at applied
    next found =>
      obtain rfl := Except.ok.inj applied
      have named : ColorMode.name _ = mode := nameOf_of_find? found
      constructor <;> simp_all [Argument.field?]
    next => cases applied
  | input =>
    simp only [Options.apply] at applied
    split at applied
    next => cases applied
    next unnamed =>
      obtain rfl := Except.ok.inj applied
      constructor <;> simp_all [Argument.field?]
  | config | comments | noComments =>
    obtain rfl := Except.ok.inj applied
    constructor <;> simp_all [Argument.field?]
  | unknown => cases applied

/-- Reads further arguments into options that are known so far. -/
def Options.readFurther (options : Options) (arguments : List String) : Except Error Options :=
  arguments.foldlM (fun options text => options.apply (.ofText text)) options

theorem Options.IsReadFrom.readFurther {final : Options} (read : options.IsReadFrom earlier)
    (done : options.readFurther later = .ok final) : final.IsReadFrom (earlier ++ later) := by
  induction later generalizing earlier options with
  | nil => rwa [List.append_nil, ← Except.ok.inj done]
  | cons text later ih =>
    rw [Options.readFurther, List.foldlM_cons] at done
    obtain ⟨next, applied, behind⟩ := bind_eq_ok.mp done
    have further := ih (read.apply applied) behind
    rwa [List.append_assoc] at further

theorem isReadFrom_nil : Options.IsReadFrom {} [] := ⟨rfl, rfl, rfl, rfl, rfl⟩

theorem isReadFrom_of_readFurther (done : Options.readFurther {} arguments = .ok options) :
    options.IsReadFrom arguments := isReadFrom_nil.readFurther done

/-- A walk over a list fails at the first item that a step fails at. -/
theorem foldlM_eq_error {α σ ε : Type} {step : σ → α → Except ε σ} {items : List α} {start : σ}
    {error : ε} :
    items.foldlM step start = .error error ↔
      ∃ before item after reached, items = before ++ item :: after ∧
        before.foldlM step start = .ok reached ∧ step reached item = .error error := by
  induction items generalizing start with
  | nil => simp [pure, Except.pure]
  | cons first items ih =>
    rw [List.foldlM_cons]
    cases taken : step start first with
    | error failure =>
      constructor
      · intro failed
        exact ⟨[], first, items, start, rfl, rfl, taken.trans failed⟩
      · rintro ⟨before, item, after, reached, split, walked, failed⟩
        cases before with
        | nil =>
          obtain ⟨rfl, rfl⟩ := List.cons.inj split
          obtain rfl := Except.ok.inj walked
          exact taken.symm.trans failed
        | cons other before =>
          obtain ⟨rfl, rfl⟩ := List.cons.inj split
          rw [List.foldlM_cons, taken] at walked
          cases walked
    | ok next =>
      refine ih.trans ⟨?_, ?_⟩
      · rintro ⟨before, item, after, reached, rfl, walked, failed⟩
        refine ⟨first :: before, item, after, reached, rfl, ?_, failed⟩
        rw [List.foldlM_cons, taken]
        exact walked
      · rintro ⟨before, item, after, reached, split, walked, failed⟩
        cases before with
        | nil =>
          obtain ⟨rfl, rfl⟩ := List.cons.inj split
          obtain rfl := Except.ok.inj walked
          cases taken.symm.trans failed
        | cons other before =>
          obtain ⟨rfl, rfl⟩ := List.cons.inj split
          rw [List.foldlM_cons, taken] at walked
          exact ⟨before, item, after, reached, rfl, walked, failed⟩

theorem exists_readFurther_iff :
    (∃ options, Options.readFurther {} arguments = .ok options) ↔ Faultless arguments := by
  constructor
  · rintro ⟨options, done⟩ earlier text later rfl error fault
    rw [Options.readFurther, List.foldlM_append] at done
    obtain ⟨reached, walked, behind⟩ := bind_eq_ok.mp done
    rw [List.foldlM_cons] at behind
    obtain ⟨next, applied, -⟩ := bind_eq_ok.mp behind
    rw [(apply_eq_error (isReadFrom_of_readFurther walked)).mpr fault] at applied
    cases applied
  · intro faultless
    cases done : Options.readFurther {} arguments with
    | ok options => exact ⟨options, rfl⟩
    | error error =>
      obtain ⟨earlier, text, later, reached, split, walked, failed⟩ := foldlM_eq_error.mp done
      have fault := (apply_eq_error (isReadFrom_of_readFurther walked)).mp failed
      exact absurd fault (faultless earlier text later split error)

theorem readFurther_eq_error :
    Options.readFurther {} arguments = .error error ↔
      ∃ earlier text later, arguments = earlier ++ text :: later ∧ Faultless earlier ∧
        Fault earlier text error := by
  rw [Options.readFurther, foldlM_eq_error]
  constructor
  · rintro ⟨earlier, text, later, reached, split, walked, failed⟩
    exact ⟨earlier, text, later, split, exists_readFurther_iff.mp ⟨reached, walked⟩,
      (apply_eq_error (isReadFrom_of_readFurther walked)).mp failed⟩
  · rintro ⟨earlier, text, later, split, faultless, fault⟩
    obtain ⟨reached, walked⟩ := exists_readFurther_iff.mpr faultless
    exact ⟨earlier, text, later, reached, split, walked,
      (apply_eq_error (isReadFrom_of_readFurther walked)).mpr fault⟩

theorem isSome_lastSetting (field : Field) (arguments : List String) :
    (lastSetting field arguments).isSome = true ↔
      ∃ text ∈ arguments, field.isSetBy text = true := by
  rw [lastSetting, List.getLast?_isSome, Ne, List.filter_eq_nil_iff]
  simp

theorem conflict_iff (read : options.IsReadFrom arguments) :
    options.conflict = true ↔ SetsBoth arguments := by
  rw [SetsBoth, ← isSome_lastSetting, ← isSome_lastSetting, read.dialect, read.config,
    Option.isSome_map, Option.isSome_map, Options.conflict, Bool.and_eq_true]

/-- Two options that are written alike are the same. -/
theorem append_comp_injective {α : Type} (option : String) {nameOf : α → String}
    (injective : Function.Injective nameOf) :
    Function.Injective fun value => option ++ nameOf value := by
  intro first second same
  exact injective ((String.append_right_inj option).mp same)

theorem Options.IsReadFrom.unique (read : options.IsReadFrom arguments)
    (again : next.IsReadFrom arguments) : options = next := by
  have dialects : Function.Injective Dialect.name := by
    intro first second
    cases first <;> cases second <;> decide
  have colors : Function.Injective ColorMode.name := by
    intro first second
    cases first <;> cases second <;> decide
  have switches : Function.Injective fun enabled : Bool =>
      if enabled then "--comments" else "--no-comments" := by
    intro first second
    cases first <;> cases second <;> decide
  have input : options.input = next.input := by
    have listed := read.input.symm.trans again.input
    rw [← Option.head?_toList (o := options.input), listed, Option.head?_toList]
  have dialect := Option.map_injective (append_comp_injective "--dialect=" dialects)
    (read.dialect.symm.trans again.dialect)
  have config := Option.map_injective (append_comp_injective "--config=" Function.injective_id)
    (read.config.symm.trans again.config)
  have comments := Option.map_injective switches (read.comments.symm.trans again.comments)
  have color := append_comp_injective "--color=" colors (read.color.symm.trans again.color)
  cases options
  cases next
  simp_all

theorem ofArguments_eq (arguments : List String) :
    Options.ofArguments arguments = Options.readFurther {} arguments >>= fun options =>
      if options.conflict then .error .conflictingOptions else .ok options := by
  rw [Options.ofArguments, Options.readFurther]
  refine congrArg _ (funext fun options => ?_)
  cases options.conflict <;> rfl

theorem verdict_ofArguments (arguments : List String) :
    Verdict arguments (Options.ofArguments arguments) := by
  rw [ofArguments_eq]
  cases done : Options.readFurther {} arguments with
  | error error =>
    obtain ⟨earlier, text, later, split, faultless, fault⟩ := readFurther_eq_error.mp done
    exact .faulty split faultless fault
  | ok options =>
    have faultless := exists_readFurther_iff.mp ⟨options, done⟩
    have read := isReadFrom_of_readFurther done
    change Verdict arguments (if options.conflict then .error .conflictingOptions else .ok options)
    split
    next conflict => exact .conflicting faultless ((conflict_iff read).mp conflict)
    next noConflict => exact .accepted faultless (mt (conflict_iff read).mpr noConflict) read

theorem Verdict.eq_ofArguments {result : Except Error Options} (verdict : Verdict arguments result) :
    Options.ofArguments arguments = result := by
  rw [ofArguments_eq]
  cases verdict with
  | faulty split faultless fault =>
    rw [readFurther_eq_error.mpr ⟨_, _, _, split, faultless, fault⟩]
    rfl
  | conflicting faultless both =>
    obtain ⟨options, done⟩ := exists_readFurther_iff.mpr faultless
    have conflict := (conflict_iff (isReadFrom_of_readFurther done)).mpr both
    rw [done]
    exact if_pos conflict
  | accepted faultless free read =>
    obtain ⟨options, done⟩ := exists_readFurther_iff.mpr faultless
    have noConflict := mt (conflict_iff (isReadFrom_of_readFurther done)).mp free
    rw [done, read.unique (isReadFrom_of_readFurther done)]
    exact if_neg noConflict

/-- In another order an argument is faulty only if it is so in the given one, or if there was an
input too many there. -/
theorem IsReordering.faultless {other : List String} (reordering : IsReordering arguments other)
    (faultless : Faultless arguments) (read : options.IsReadFrom arguments) : Faultless other := by
  rintro earlier text later rfl error fault
  have present : text ∈ arguments := reordering.perm.mem_iff.mpr (by simp)
  obtain ⟨before, after, split⟩ := List.append_of_mem present
  cases fault with
  | dialect unknown => exact faultless before _ after split _ (.dialect unknown)
  | color unknown => exact faultless before _ after split _ (.color unknown)
  | option dash noName noValue =>
    exact faultless before _ after split _ (.option dash noName noValue)
  | input isInput again =>
    -- Two inputs are too many for the one that the options have room for.
    obtain ⟨first, member, alsoInput⟩ := again
    have inputs : options.input.toList = (earlier ++ text :: later).filter Field.input.isSetBy :=
      read.input.symm.trans (reordering.sameOrder .input)
    have one : options.input.toList.length ≤ 1 := by cases options.input <;> simp
    have some : 0 < (earlier.filter Field.input.isSetBy).length :=
      List.length_pos_of_mem (List.mem_filter.mpr ⟨member, alsoInput⟩)
    rw [inputs, List.filter_append, List.filter_cons_of_pos isInput, List.length_append,
      List.length_cons] at one
    omega

theorem IsReordering.isReadFrom {other : List String} (reordering : IsReordering arguments other)
    (read : options.IsReadFrom arguments) : options.IsReadFrom other := by
  have settings (field : Field) : lastSetting field other = lastSetting field arguments :=
    congrArg List.getLast? (reordering.sameOrder field).symm
  exact {
    input := (reordering.sameOrder .input).symm.trans read.input
    dialect := (settings .dialect).trans read.dialect
    config := (settings .config).trans read.config
    comments := (settings .comments).trans read.comments
    color := by rw [settings .color, read.color] }

theorem IsReordering.setsBoth {other : List String} (reordering : IsReordering arguments other) :
    SetsBoth other ↔ SetsBoth arguments := by
  have members (text : String) : text ∈ other ↔ text ∈ arguments := reordering.perm.mem_iff.symm
  simp only [SetsBoth, members]

/-- What becomes of arguments is their verdict, which is one for all arguments: the error of the
first faulty one from the left, or the conflict of a dialect and a configuration file, or the
options of which each is what the last argument that sets it says. Arguments that are accepted may
be given in any other order that keeps the order among those for the same option. -/
theorem ofArguments_eq_iff_verdict (arguments : List String) :
    (∀ result, Options.ofArguments arguments = result ↔ Verdict arguments result) ∧
    ∀ (other : List String) (options : Options), IsReordering arguments other →
      Options.ofArguments arguments = .ok options → Options.ofArguments other = .ok options := by
  constructor
  · intro result
    constructor
    · rintro rfl
      exact verdict_ofArguments arguments
    · exact Verdict.eq_ofArguments
  · intro other options reordering accepted
    have verdict := verdict_ofArguments arguments
    rw [accepted] at verdict
    cases verdict with
    | accepted faultless free read =>
      apply Verdict.eq_ofArguments
      exact .accepted (reordering.faultless faultless read) (mt reordering.setsBoth.mp free)
        (reordering.isReadFrom read)

/-- Colours are asked for twice, and the later word keeps the last say wherever the input and the
dialect go. -/
theorem ofArguments_eq_iff_verdict_shuffled :
    let arguments := ["--color=always", "--dialect=mailing", "query", "--color=never"]
    let other := ["query", "--color=always", "--color=never", "--dialect=mailing"]
    let options : Options := { input := "query", dialect := some .mailing, color := .never }
    IsReordering arguments other ∧ Options.ofArguments arguments = .ok options ∧
      Options.ofArguments other = .ok options := by
  intro arguments other options
  have reordering : IsReordering arguments other := {
    perm := by decide
    sameOrder := by
      intro field
      cases field <;> decide }
  have accepted : Options.ofArguments arguments = .ok options := by decide
  exact ⟨reordering, accepted,
    (ofArguments_eq_iff_verdict arguments).2 other options reordering accepted⟩

end QueryHighlight.CommandLine
