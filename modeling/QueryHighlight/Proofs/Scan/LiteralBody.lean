import QueryHighlight.Scan.Rule

/-!
What the pieces of a string literal look like. An escape is a backslash, one character and, unless
that character is an escape on its own, some hexadecimal digits; so no escape reaches over a
backslash or a quote that it does not start with. Content ends before the next live character.
-/

namespace QueryHighlight.Scan
open Text

theorem split_of_startsWithRun {isMember : Char → Bool} {count : Nat} {rest : List Char}
    (starts : startsWithRun isMember count rest = true) :
    ∃ run further, rest = run ++ further ∧ run.length = count ∧ ∀ c ∈ run, isMember c = true := by
  induction count generalizing rest with
  | zero => exact ⟨[], rest, rfl, rfl, by simp⟩
  | succ count ih =>
    cases rest with
    | nil => cases starts
    | cons c rest =>
      obtain ⟨member, others⟩ := Bool.and_eq_true_iff.mp starts
      obtain ⟨run, further, same, length, members⟩ := ih others
      refine ⟨c :: run, further, by rw [same, List.cons_append], by rw [List.length_cons, length], ?_⟩
      intro d present
      rcases List.mem_cons.mp present with rfl | later
      · exact member
      · exact members d later

theorem isHexDigit_of_isOctalDigit {c : Char} (octal : isOctalDigit c = true) :
    isHexDigit c = true := by
  simp only [isOctalDigit, isHexDigit, Char.isDigit, Bool.and_eq_true, Bool.or_eq_true,
    decide_eq_true_eq] at *
  refine .inl (.inl ⟨octal.1, Char.le_trans octal.2 (by decide)⟩)

/-- An escape sequence: what the backslash stands before, and the digits behind that. -/
structure IsEscape (size : Nat) (rest : List Char) (c : Char) (digits : List Char) : Prop where
  starts : ∃ further, rest = '\\' :: c :: (digits ++ further)
  length : size = digits.length + 2
  simple : isSimpleEscape c = true → digits = []
  areDigits : ∀ d ∈ digits, isHexDigit d = true

theorem isEscape_of_run {isMember : Char → Bool} {count : Nat} {c : Char} {rest : List Char}
    (notSimple : ¬isSimpleEscape c = true) (run : startsWithRun isMember count rest = true)
    (hexadecimal : ∀ d, isMember d = true → isHexDigit d = true) :
    ∃ digits, IsEscape (count + 2) ('\\' :: c :: rest) c digits := by
  obtain ⟨digits, further, same, length, members⟩ := split_of_startsWithRun run
  exact ⟨digits, ⟨further, by rw [same]⟩, by rw [length], fun simple => absurd simple notSimple,
    fun d present => hexadecimal d (members d present)⟩

theorem exists_isEscape {rest : List Char} {size : Nat} (found : escapeSize? rest = some size) :
    ∃ c digits, IsEscape size rest c digits := by
  unfold escapeSize? at found
  split at found
  next backslash c rest =>
    obtain ⟨isBackslash, claimed⟩ := Option.ite_none_left_eq_some.mp found
    cases Decidable.not_not.mp isBackslash
    refine ⟨c, ?_⟩
    by_cases simple : isSimpleEscape c = true
    · rw [if_pos simple] at claimed
      cases claimed
      exact ⟨[], ⟨rest, rfl⟩, rfl, fun _ => rfl, by simp⟩
    · rw [if_neg simple] at claimed
      split at claimed
      next digits =>
        cases claimed
        exact isEscape_of_run simple digits.2 fun _ => id
      next =>
        split at claimed
        next octal =>
          cases claimed
          -- The first of the three digits is the character behind the backslash.
          have others := (Bool.and_eq_true_iff.mp octal).2
          exact isEscape_of_run simple others fun _ => isHexDigit_of_isOctalDigit
        next =>
          split at claimed
          next digits =>
            cases claimed
            exact isEscape_of_run simple digits.2 fun _ => id
          next =>
            obtain ⟨digits, same⟩ := Option.ite_none_right_eq_some.mp claimed
            cases same
            exact isEscape_of_run simple digits.2 fun _ => id
  next => cases found

theorem eq_of_isContinuation {rest : List Char} (ends : isContinuation rest = true) :
    rest = ['\\'] := by
  match rest with
  | [] => cases ends
  | [c] => exact congrArg (fun c => [c]) (eq_of_beq ends)
  | _ :: _ :: _ => cases ends

/-- Everything that a step inside a literal can do. -/
inductive StringStep (quote : Quote) (rest : List Char) : Match → Prop
  | escape {size : Nat} (found : escapeSize? rest = some size) :
      StringStep quote rest { tag := .stringEscape, size, state := .string quote }
  | continuation (ends : rest = ['\\']) :
      StringStep quote rest { tag := .stringContinuation, size := 1, state := .string quote }
  | closer {after : List Char} (closes : rest = quote.char :: after) :
      StringStep quote rest { tag := .stringClose, size := 1, state := .start }
  | content (inside : isContent quote rest = true) :
      StringStep quote rest
        { tag := .stringContent, size := contentSize quote rest, state := .string quote }

theorem stringStep (quote : Quote) {rest : List Char} (unread : rest ≠ []) :
    StringStep quote rest (stringMatch quote rest) := by
  obtain ⟨c, after, rfl⟩ := List.exists_cons_of_ne_nil unread
  unfold stringMatch stringRules
  simp only [List.findSome?_cons, List.findSome?_nil, escapeRule, continuationRule, closerRule]
  cases found : escapeSize? (c :: after) with
  | some size => exact .escape found
  | none =>
    by_cases ends : isContinuation (c :: after) = true
    · rw [if_pos ends]
      exact .continuation (eq_of_isContinuation ends)
    · rw [if_neg ends]
      by_cases closes : c = quote.char
      · rw [if_pos closes]
        exact .closer (congrArg (· :: after) closes)
      · rw [if_neg closes]
        have inside : isContent quote (c :: after) = true := by
          rw [isContent, found, Bool.eq_false_iff.mpr ends, bne_iff_ne.mpr closes]
          rfl
        exact .content inside

end QueryHighlight.Scan
