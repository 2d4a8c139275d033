import QueryHighlight.Config.Reader
import QueryHighlight.Proofs.Json.Placing

/-!
Settings in a text that stops too early. Whatever is read of them, a complaint that the text ends
comes when nothing is left of it, so the place that it names is the end of the text.
-/

namespace QueryHighlight
open Json Text

namespace Config.Reader

/-- The problems of the broken lexemes are well placed. -/
abbrev AllPlaced (lexemes : List Lexeme) : Prop := ∀ lexeme ∈ lexemes, lexeme.symbol.IsPlaced

/-- The reader leaves lexemes whose problems are well placed, or fails with such a problem. -/
def ReadsPlaced {α : Type} (read : List Lexeme → Except Problem (α × List Lexeme)) : Prop :=
  ∀ lexemes, AllPlaced lexemes → Gives (fun result => AllPlaced result.2) (read lexemes)

section

variable {α : Type} {wanted : α → Prop}

theorem complain_nil (cause : Cause) : Gives wanted (complain cause []) := Problem.isPlaced_end _

theorem complain_inside {cause : Cause} {lexemes : List Lexeme}
    (inside : cause.category ≠ .eof) : Gives wanted (complain cause lexemes) :=
  Problem.isPlaced_inside inside

theorem mismatch_isPlaced {lexeme : Lexeme} (placed : lexeme.symbol.IsPlaced) (expected : String) :
    (mismatch expected lexeme).IsPlaced := by
  obtain ⟨symbol, before, after⟩ := lexeme
  cases symbol with
  | broken | brokenString => exact placed
  | _ =>
    intro early
    cases early

/-- A reader complains of the end where there is no lexeme, and otherwise looks at the first one. -/
theorem ReadsPlaced.of_cons {read : List Lexeme → Except Problem (α × List Lexeme)} {cause : Cause}
    (ends : read [] = complain cause [])
    (goesOn : ∀ lexeme rest, lexeme.symbol.IsPlaced → AllPlaced rest →
      Gives (fun result => AllPlaced result.2) (read (lexeme :: rest))) : ReadsPlaced read := by
  intro lexemes placed
  cases lexemes with
  | nil => exact ends ▸ complain_nil cause
  | cons lexeme rest =>
    obtain ⟨here, there⟩ := List.forall_mem_cons.mp placed
    exact goesOn lexeme rest here there

theorem readString_placed : ReadsPlaced readString := by
  refine .of_cons rfl fun lexeme rest here there => ?_
  rw [readString]
  split
  · exact there
  · exact mismatch_isPlaced here _

theorem readBool_placed : ReadsPlaced readBool := by
  refine .of_cons rfl fun lexeme rest here there => ?_
  rw [readBool]
  split
  · exact there
  · exact mismatch_isPlaced here _

theorem readFurtherWords_placed : ReadsPlaced readFurtherWords := by
  intro lexemes placed
  fun_induction readFurtherWords lexemes with
  | case1 => exact complain_nil _
  | case2 => exact (List.forall_mem_cons.mp placed).2
  | case3 => exact complain_nil _
  | case4 => exact complain_inside (by decide)
  | case5 lexeme _ item behind word _ ih =>
    obtain ⟨-, -, there⟩ := List.forall_mem_cons.mp placed |>.imp_right List.forall_mem_cons.mp
    exact (ih there).map fun _ left => left
  | case6 lexeme _ item behind _ _ =>
    obtain ⟨-, here, -⟩ := List.forall_mem_cons.mp placed |>.imp_right List.forall_mem_cons.mp
    exact mismatch_isPlaced here _
  | case7 => exact complain_inside (by decide)

theorem readWordsBehind_placed : ReadsPlaced readWordsBehind := by
  refine .of_cons rfl fun item rest here there => ?_
  rw [readWordsBehind]
  split
  · exact there
  · exact (readFurtherWords_placed rest there).map fun _ left => left
  · exact mismatch_isPlaced here _

theorem readWords_placed : ReadsPlaced readWords := by
  refine .of_cons rfl fun lexeme rest here there => ?_
  rw [readWords]
  split
  · exact readWordsBehind_placed rest there
  · exact mismatch_isPlaced here _

theorem ReadsPlaced.optional {read : List Lexeme → Except Problem (α × List Lexeme)}
    (reads : ReadsPlaced read) : ReadsPlaced (readOptional read) := by
  intro lexemes placed
  unfold readOptional
  split
  · exact (List.forall_mem_cons.mp placed).2
  · exact (reads _ placed).map fun _ left => left

theorem readSetting_placed (setting : Setting) (overrides : Overrides) :
    ReadsPlaced (readSetting setting overrides) := by
  intro lexemes placed
  cases setting with
  | dialect => exact (readString_placed.optional _ placed).map fun _ left => left
  | comments => exact (readBool_placed.optional _ placed).map fun _ left => left
  | keywords | functions | constants =>
    exact (readWords_placed.optional _ placed).map fun _ left => left

theorem settingOf_failsPlaced (seen : List Setting) (key : String) (rest : List Lexeme) :
    FailsPlaced (settingOf seen key rest) := by
  unfold settingOf
  split
  · exact Problem.isPlaced_inside (show Category.data ≠ .eof by decide)
  · split
    · exact Problem.isPlaced_inside (show Category.data ≠ .eof by decide)
    · trivial

theorem expectColon_gives {lexemes : List Lexeme} (placed : AllPlaced lexemes) :
    Gives AllPlaced (expectColon lexemes) := by
  unfold expectColon
  split
  · exact complain_nil _
  · exact (List.forall_mem_cons.mp placed).2
  · exact complain_inside (by decide)

theorem readField_gives (seen : List Setting) (overrides : Overrides) (key : String)
    {lexemes : List Lexeme} (placed : AllPlaced lexemes) :
    Gives (fun result => AllPlaced result.2.2) (readField seen overrides key lexemes) :=
  (settingOf_failsPlaced seen key lexemes).bind fun _ _ => (expectColon_gives placed).bind
    fun _ behind => (readSetting_placed _ _ _ behind).bind fun _ left => left

theorem readFurtherFields_placed (seen : List Setting) (overrides : Overrides) :
    ReadsPlaced (readFurtherFields seen overrides) := by
  intro lexemes placed
  fun_induction readFurtherFields seen overrides lexemes with
  | case1 => exact complain_nil _
  | case2 => exact (List.forall_mem_cons.mp placed).2
  | case3 => exact complain_nil _
  | case4 seen overrides _ _ _ behind name _ problem failed =>
    have there := (List.forall_mem_cons.mp (List.forall_mem_cons.mp placed).2).2
    have given := readField_gives seen overrides name there
    rwa [failed] at given
  | case5 seen overrides _ _ _ behind name _ setting others left found ih =>
    have there := (List.forall_mem_cons.mp (List.forall_mem_cons.mp placed).2).2
    have given := readField_gives seen overrides name there
    rw [found] at given
    exact ih given
  | case6 _ _ _ _ key _ problem broken =>
    have here := (List.forall_mem_cons.mp (List.forall_mem_cons.mp placed).2).1
    rwa [broken] at here
  | case7 => exact complain_inside (by decide)
  | case8 => exact complain_inside (by decide)
  | case9 => exact complain_inside (by decide)

theorem readFields_placed : ReadsPlaced readFields := by
  refine .of_cons rfl fun key rest here there => ?_
  rw [readFields]
  split
  · exact there
  · exact (readField_gives _ _ _ there).bind fun _ left => readFurtherFields_placed _ _ _ left
  next problem broken => rwa [broken] at here
  · exact complain_inside (by decide)

theorem closeItems_gives {lexemes : List Lexeme} (placed : AllPlaced lexemes) :
    Gives AllPlaced (closeItems lexemes) := by
  unfold closeItems
  split
  · exact complain_nil _
  · split
    · exact (List.forall_mem_cons.mp placed).2
    · split
      · exact complain_inside (by decide)
      · exact complain_inside (by decide)
    · exact complain_inside (by decide)

theorem tooFew_gives (count : Nat) (lexemes : List Lexeme) :
    Gives wanted (tooFew count lexemes) :=
  Problem.isPlaced_inside (show Category.data ≠ .eof by decide)

theorem readFurtherItems_placed (count : Nat) (overrides : Overrides) (settings : List Setting) :
    ReadsPlaced (readFurtherItems count overrides settings) := by
  induction settings generalizing count overrides with
  | nil =>
    intro lexemes placed
    exact (closeItems_gives placed).map fun _ left => left
  | cons setting settings ih =>
    refine .of_cons rfl fun lexeme rest _ there => ?_
    rw [readFurtherItems.eq_def]
    dsimp only
    split
    · exact tooFew_gives _ _
    · split
      · exact complain_nil _
      · exact complain_inside (by decide)
      · exact (readSetting_placed _ _ _ there).bind fun _ left => ih _ _ _ left
    · exact complain_inside (by decide)

theorem readItems_placed : ReadsPlaced readItems := by
  intro lexemes placed
  unfold readItems
  split
  · exact complain_nil _
  · exact tooFew_gives _ _
  · exact (readSetting_placed _ _ _ placed).bind fun _ left =>
      readFurtherItems_placed _ _ _ _ left

theorem readOverrides_placed : ReadsPlaced readOverrides := by
  refine .of_cons rfl fun lexeme rest here there => ?_
  rw [readOverrides]
  split
  · exact readFields_placed _ there
  · exact readItems_placed _ there
  · exact mismatch_isPlaced here _

end

end Config.Reader

theorem Overrides.ofJson_failsPlaced (text : String) : FailsPlaced (ofJson text) := by
  refine (Config.Reader.readOverrides_placed _ (lexemes_isPlaced _)).bind fun result _ => ?_
  dsimp only
  split
  · trivial
  · exact Config.Reader.complain_inside (by decide)

/-- A text that is refused because it stops too early is refused at its end. -/
theorem SettingsParser.place_of_unfinished {text : String} {problem : Problem} {place : Place}
    (refused : json text = .error (problem, place)) (early : problem.cause.category = .eof) :
    place = .ofOffset text.toList (byteLength text.toList) := by
  have placed := Overrides.ofJson_failsPlaced text
  unfold json at refused
  cases read : Overrides.ofJson text with
  | ok settings => rw [read] at refused; cases refused
  | error other =>
    rw [read] at refused placed
    cases refused
    rw [Problem.placeIn, placed early, Nat.sub_zero]

end QueryHighlight
