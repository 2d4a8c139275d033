import QueryHighlight.Proofs.Cursor.Numerals
import QueryHighlight.Proofs.Scan.Naming
import QueryHighlight.Proofs.Scan.StartRules

/-!
What the first character of a text tells about the rules between literals. Different tokens start with
different characters, so whichever rule the character is for, no later one could claim the text; and
how far a name goes can be found out by trying the ends of its run from the last to the first.
-/

namespace QueryHighlight
open Text Scan

theorem asciiOnly_isNameStart : AsciiOnly isNameStart :=
  asciiOnly_of_mem_tokenTests _ (by simp [tokenTests])

theorem asciiOnly_isNamePart : AsciiOnly isNamePart :=
  asciiOnly_of_mem_tokenTests _ (by simp [tokenTests])

theorem asciiOnly_isOpenBracket : AsciiOnly isOpenBracket :=
  asciiOnly_of_mem_tokenTests _ (by simp [tokenTests])

theorem asciiOnly_isCloseBracket : AsciiOnly isCloseBracket :=
  asciiOnly_of_mem_tokenTests _ (by simp [tokenTests])

/-- A blank of ASCII. -/
def isNarrowBlank (c : Char) : Bool := c.val.toNat ≤ 0x7f && isBlank c

theorem isBlank_of_isNarrowBlank (c : Char) (narrow : isNarrowBlank c = true) : isBlank c = true :=
  (Bool.and_eq_true_iff.mp narrow).2

theorem asciiOnly_isNarrowBlank : AsciiOnly isNarrowBlank := by
  intro c member
  rw [isNarrowBlank, Bool.and_eq_true, decide_eq_true_eq] at member
  refine ⟨Nat.pos_of_ne_zero ?_, member.1⟩
  intro null
  have same : c = '\x00' := Char.ext (UInt32.toNat_inj.mp null)
  rw [same] at member
  exact absurd member.2 (by decide)

theorem AsciiAhead.of_nameSize? {text : List Char} {size : Nat}
    (found : nameSize? text = some size) : AsciiAhead size text where
  present := (fits_nameSize? found).2
  ascii := by
    have reachable := isReachable_of_nameSize? found
    rw [isReachable, Bool.and_eq_true, Bool.and_eq_true] at reachable
    intro c member
    exact (asciiOnly_isNamePart c (List.all_eq_true.mp reachable.1.2 c member)).2

namespace Scan

variable {before c : Char} {rest : List Char}

theorem boundaryAt_cons {size : Nat} (positive : 0 < size) :
    boundaryAt (before :: rest) (size + 1) = boundaryAt rest size := by
  obtain ⟨less, rfl⟩ := Nat.exists_eq_succ_of_ne_zero (Nat.ne_of_gt positive)
  rfl

/-- Of the boundaries in a run the one behind its first character is the last to be tried. -/
theorem find?_boundaryAt_cons (before : Char) (rest : List Char) (count : Nat) :
    (List.range' 1 (count + 1)).reverse.find? (boundaryAt (before :: rest)) =
      (((List.range' 1 count).reverse.find? (boundaryAt rest)).map (1 + ·)).or
        (if boundaryAt (before :: rest) 1 then some 1 else none) := by
  have shifted : ((List.range' 1 count).reverse.find? (boundaryAt (before :: rest) ∘ (1 + ·))) =
      (List.range' 1 count).reverse.find? (boundaryAt rest) := by
    apply List.find?_congr
    intro size member
    rw [List.mem_reverse, List.mem_range'_1] at member
    rw [Function.comp_apply, Nat.add_comm, boundaryAt_cons member.1]
  rw [List.range'_succ, ← List.map_add_range', List.reverse_cons, ← List.map_reverse,
    List.find?_append, List.find?_map, shifted, List.find?_singleton]

/-- A name takes its first character and what is before the last boundary in the run behind it. -/
theorem nameRest?_eq_find? (before : Char) (rest : List Char) :
    (nameRest? before rest).map (1 + ·) =
      (List.range' 1 ((rest.takeWhile isNamePart).length + 1)).reverse.find?
        (boundaryAt (before :: rest)) := by
  induction rest generalizing before with
  | nil =>
    rw [find?_boundaryAt_cons, nameRest?]
    cases word : isWord before <;> simp [boundaryAt, word]
  | cons c rest ih =>
    have first : boundaryAt (before :: c :: rest) 1 = (isWord before != isWord c) := rfl
    rw [find?_boundaryAt_cons, first, nameRest?, List.takeWhile_cons]
    by_cases part : isNamePart c = true
    · rw [if_pos part, if_pos part, List.length_cons, ← ih]
      cases nameRest? c rest with
      | none => cases isWord before != isWord c <;> rfl
      | some size =>
        rw [Option.map_some, Option.map_some, Option.map_some, Option.some_or, Nat.add_comm 1 size]
    · rw [if_neg part, if_neg part]
      cases isWord before != isWord c <;> rfl

theorem take_length_takeWhile (isMember : Char → Bool) (text : List Char) :
    text.take (text.takeWhile isMember).length = text.takeWhile isMember :=
  (List.prefix_iff_eq_take.mp (List.takeWhile_prefix isMember)).symm

theorem drop_length_takeWhile (isMember : Char → Bool) (text : List Char) :
    text.drop (text.takeWhile isMember).length = text.dropWhile isMember := by
  have split : text.takeWhile isMember ++ text.dropWhile isMember = text :=
    List.takeWhile_append_dropWhile
  have behind : (text.takeWhile isMember ++ text.dropWhile isMember).drop
      (text.takeWhile isMember).length = text.dropWhile isMember := List.drop_left
  rwa [split] at behind

/-- A run begins with the run of any class inside of its own. -/
theorem takeWhile_of_imp {isMember isOther : Char → Bool}
    (inside : ∀ c, isOther c = true → isMember c = true) (text : List Char) :
    text.takeWhile isMember =
        text.takeWhile isOther ++ (text.dropWhile isOther).takeWhile isMember ∧
      text.dropWhile isMember = (text.dropWhile isOther).dropWhile isMember := by
  have members : ∀ c ∈ text.takeWhile isOther, isMember c = true := by
    intro c present
    exact inside c (List.all_eq_true.mp List.all_takeWhile c present)
  have split : text.takeWhile isOther ++ text.dropWhile isOther = text :=
    List.takeWhile_append_dropWhile
  have taken : (text.takeWhile isOther ++ text.dropWhile isOther).takeWhile isMember =
      text.takeWhile isOther ++ (text.dropWhile isOther).takeWhile isMember :=
    List.takeWhile_append_of_pos members
  have left : (text.takeWhile isOther ++ text.dropWhile isOther).dropWhile isMember =
      (text.dropWhile isOther).dropWhile isMember :=
    List.dropWhile_append_of_pos members
  rw [split] at taken left
  exact ⟨taken, left⟩

/-- Classes that hold the first characters of different tokens have no character in common. -/
theorem tokens_apart {c : Char} (ascii : c.val.toNat ≤ 0x7f) :
    (c.isDigit = true ∨ c = '.' →
      isNameStart c = false ∧ isOpenBracket c = false ∧ isCloseBracket c = false) ∧
    (isNameStart c = true → isOpenBracket c = false ∧ isCloseBracket c = false) := by
  have every : ∀ n < 0x80,
      ((Char.ofNat n).isDigit = true ∨ Char.ofNat n = '.' →
        isNameStart (Char.ofNat n) = false ∧ isOpenBracket (Char.ofNat n) = false ∧
          isCloseBracket (Char.ofNat n) = false) ∧
      (isNameStart (Char.ofNat n) = true →
        isOpenBracket (Char.ofNat n) = false ∧ isCloseBracket (Char.ofNat n) = false) := by
    decide +kernel
  have known := every c.toNat (Nat.lt_succ_of_le ascii)
  rwa [Char.ofNat_toNat] at known

theorem nameRule_eq_none (noStart : isNameStart c = false) : nameRule (c :: rest) = none := by
  rw [nameRule, nameSize?, noStart]
  rfl

theorem bracketRule_eq_none (noOpen : isOpenBracket c = false)
    (noClose : isCloseBracket c = false) : bracketRule (c :: rest) = none := by
  rw [bracketRule, noOpen, noClose]
  rfl

theorem blankRule_eq_none (noBlank : isBlank c = false) : blankRule (c :: rest) = none := by
  have none : (c :: rest).takeWhile isBlank = [] :=
    List.takeWhile_cons_of_neg (Bool.eq_false_iff.mp noBlank)
  rw [blankRule, none]
  rfl

theorem blankRule_of_isBlank (blank : isBlank c = true) :
    blankRule (c :: rest) =
      some { tag := .whitespace, size := ((c :: rest).takeWhile isBlank).length } := by
  have positive : 0 < ((c :: rest).takeWhile isBlank).length := by
    rw [List.takeWhile_cons_of_pos blank]
    exact Nat.succ_pos _
  exact if_pos positive

/-- What starts another token is no blank. -/
theorem isBlank_eq_false {test : Char → Bool} (asked : test ∈ tokenTests) (yes : test c = true) :
    isBlank c = false := by
  rw [Bool.eq_false_iff]
  intro blank
  rw [test_of_isBlank blank asked] at yes
  cases yes

/-- Where a number may start no other token does. -/
theorem startRules_of_number (starts : (c.isDigit || c == '.') = true) (rest : List Char) :
    nameRule (c :: rest) = none ∧ bracketRule (c :: rest) = none ∧
      blankRule (c :: rest) = none := by
  have isNumber := Bool.or_eq_true_iff.mp starts
  have ascii : c.val.toNat ≤ 0x7f := by
    rcases isNumber with digit | point
    · exact (asciiOnly_isDigit c digit).2
    · rw [eq_of_beq point]
      decide
  have noBlank : isBlank c = false := by
    rcases isNumber with digit | point
    · exact isBlank_eq_false (by simp [tokenTests]) digit
    · exact isBlank_eq_false (named_mem_tokenTests '.' (by decide)) point
  obtain ⟨noStart, noOpen, noClose⟩ :=
    (tokens_apart ascii).1 (isNumber.imp_right eq_of_beq)
  exact ⟨nameRule_eq_none noStart, bracketRule_eq_none noOpen noClose, blankRule_eq_none noBlank⟩

/-- Where a name may start no bracket and no white space does. -/
theorem startRules_of_nameStart (starts : isNameStart c = true) (rest : List Char) :
    bracketRule (c :: rest) = none ∧ blankRule (c :: rest) = none := by
  obtain ⟨noOpen, noClose⟩ := (tokens_apart (asciiOnly_isNameStart c starts).2).2 starts
  have noBlank := isBlank_eq_false (by simp [tokenTests]) starts
  exact ⟨bracketRule_eq_none noOpen noClose, blankRule_eq_none noBlank⟩

/-- A quote may start an opener only. -/
theorem startRules_of_quote (quote : Quote) (rest : List Char) :
    numeralRule (quote.char :: rest) = none ∧ nameRule (quote.char :: rest) = none ∧
      bracketRule (quote.char :: rest) = none ∧ blankRule (quote.char :: rest) = none := by
  have noNumeral : numeral? (quote.char :: rest) = none := by
    apply numeral?_eq_none <;> cases quote <;> decide
  refine ⟨?_, ?_, ?_, ?_⟩
  · rw [numeralRule, noNumeral, Option.map_none]
  · exact nameRule_eq_none (by cases quote <;> decide)
  · exact bracketRule_eq_none (by cases quote <;> decide) (by cases quote <;> decide)
  · exact blankRule_eq_none (by cases quote <;> decide)

/-- A letter may start an opener or a name. -/
theorem startRules_of_letter (rest : List Char) :
    numeralRule ('i' :: rest) = none ∧ bracketRule ('i' :: rest) = none ∧
      blankRule ('i' :: rest) = none := by
  have starts : isNameStart 'i' = true := rfl
  refine ⟨?_, startRules_of_nameStart starts rest⟩
  rw [numeralRule, numeral?_eq_none rfl (by decide), Option.map_none]

/-- The conditions of a comment in the order in which they are asked of a cursor. -/
theorem commentRule_cons (comments : Bool) (c : Char) (rest : List Char) :
    commentRule comments (c :: rest) =
      if (c == '#' && comments && !(c :: rest).any isTerminator) = true then
        some { tag := .comment, size := (c :: rest).length }
      else none := by
  by_cases hash : c = '#'
  · subst hash
    cases comments <;> rfl
  · have other : (c == '#') = false := beq_false_of_ne hash
    rw [commentRule, other, Bool.and_false, Bool.false_and]
    rfl

/-- An opener in front of anything but a line terminator. -/
theorem openerAt_char (quote : Quote) (size : Nat) (rest : List Char) :
    openerAt size (quote.char :: rest) =
      if rest.head?.any (fun c => !isTerminator c) then
        some { tag := .stringOpen, size := size, state := .string quote }
      else none := by
  cases rest with
  | nil => rfl
  | cons c others =>
    have known : Quote.ofChar? quote.char = some quote := Quote.ofChar?_eq_some.mpr rfl
    rw [openerAt, known, List.head?_cons, Option.any_some]
    cases isTerminator c <;> rfl

end Scan

end QueryHighlight
