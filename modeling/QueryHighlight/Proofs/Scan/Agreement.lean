import QueryHighlight.Proofs.Pattern.Run
import QueryHighlight.Scan.Rule

/-!
What the rules ask about the characters of a line. A number, a name, a bracket or an escape is
found by questions with a yes or no answer about one character after the other, and the reading
stops at the first character that answers no to all of them. So two texts that answer alike up to
such a place are read alike, whatever stands behind it. The end of a line is such a place, and so
is every blank.
-/

namespace QueryHighlight.Scan
open Text

/-- Characters that the rules ask for one by one. -/
def namedChars : List Char := ['#', 'i', '.', '0', 'x', 'X', 'l', 'L', '\\', 'U', 'u']

/-- The questions about a character that may belong to a token. -/
def tokenTests : List (Char → Bool) :=
  [isWord, isNameStart, isNamePart, Char.isDigit, isHexDigit, isOctalDigit, isExponentMark, isSign,
    isOpenBracket, isCloseBracket, isSimpleEscape] ++ namedChars.map fun name c => c == name

theorem named_mem_tokenTests (name : Char) (named : name ∈ namedChars) :
    (fun c => c == name) ∈ tokenTests :=
  List.mem_append_right _ (List.mem_map_of_mem named)

/-- The codes of the blanks. -/
def blankCodes : List Nat :=
  [0x09, 0x0a, 0x0b, 0x0c, 0x0d, 0x20, 0xa0, 0x1680, 0x2000, 0x2001, 0x2002, 0x2003, 0x2004, 0x2005,
    0x2006, 0x2007, 0x2008, 0x2009, 0x200a, 0x2028, 0x2029, 0x202f, 0x205f, 0x3000, 0xfeff]

theorem toNat_mem_blankCodes {c : Char} (blank : isBlank c = true) : c.toNat ∈ blankCodes := by
  simp only [isBlank, Bool.or_eq_true, Bool.and_eq_true, decide_eq_true_eq, beq_iff_eq, Char.le_def,
    UInt32.le_iff_toNat_le, ← Char.val_inj, ← UInt32.toNat_inj, UInt32.reduceToNat, Char.reduceVal]
    at blank
  show c.val.toNat ∈ blankCodes
  simp only [blankCodes, List.mem_cons, List.not_mem_nil, or_false]
  omega

/-- A blank is no part of any token but white space. -/
theorem test_of_isBlank {c : Char} {test : Char → Bool} (blank : isBlank c = true)
    (asked : test ∈ tokenTests) : test c = false := by
  have silent : ∀ code ∈ blankCodes, ∀ test ∈ tokenTests, test (Char.ofNat code) = false := by
    decide +kernel
  rw [← Char.ofNat_toNat c]
  exact silent _ (toNat_mem_blankCodes blank) test asked

/-- Two characters that a token may have in each other's place. -/
def Interchangeable (c d : Char) : Prop := ∀ test ∈ tokenTests, test c = test d

instance (c d : Char) : Decidable (Interchangeable c d) :=
  inferInstanceAs (Decidable (∀ test ∈ tokenTests, test c = test d))

theorem Interchangeable.refl (c : Char) : Interchangeable c c := fun _ _ => rfl

theorem Interchangeable.eq_iff {c d name : Char} (same : Interchangeable c d)
    (named : name ∈ namedChars) : c = name ↔ d = name := by
  have asked := same _ (named_mem_tokenTests name named)
  rw [Bool.eq_iff_iff, beq_iff_eq, beq_iff_eq] at asked
  exact asked

/-- The first character, if there is one, answers no to every question. -/
def Silent (text : List Char) : Prop := ∀ test ∈ tokenTests, text.head?.any test = false

theorem silent_nil : Silent [] := fun _ _ => rfl

theorem silent_of_isBlank {c : Char} {rest : List Char} (blank : isBlank c = true) :
    Silent (c :: rest) := fun _ asked => test_of_isBlank blank asked

theorem Silent.answer {c : Char} {rest : List Char} {test : Char → Bool}
    (silent : Silent (c :: rest)) (asked : test ∈ tokenTests) : test c = false := silent test asked

theorem Silent.ne {c name : Char} {rest : List Char} (silent : Silent (c :: rest))
    (named : name ∈ namedChars) : c ≠ name := by
  have asked := silent _ (named_mem_tokenTests name named)
  exact ne_of_beq_false asked

/-- Two texts that answer alike up to a place where both are silent. -/
inductive Agree : List Char → List Char → Prop
  | stop {text other : List Char} (first : Silent text) (second : Silent other) : Agree text other
  | step {c d : Char} {rest others : List Char} (same : Interchangeable c d)
      (later : Agree rest others) : Agree (c :: rest) (d :: others)

theorem agree_append {first second : List Char} (silent : Silent first) (also : Silent second)
    (text : List Char) : Agree (text ++ first) (text ++ second) := by
  induction text with
  | nil => exact .stop silent also
  | cons c rest ih => exact .step (.refl c) ih

namespace Agree

variable {text other : List Char} {test : Char → Bool}

theorem head_eq (agree : Agree text other) (asked : test ∈ tokenTests) :
    other.head?.any test = text.head?.any test := by
  cases agree with
  | stop first second => rw [first test asked, second test asked]
  | step same later => exact (same test asked).symm

/-- Behind a character that answers yes the texts still agree. -/
theorem tail (agree : Agree text other) (asked : test ∈ tokenTests)
    (yes : text.head?.any test = true) : Agree text.tail other.tail := by
  cases agree with
  | stop first second =>
    rw [first test asked] at yes
    cases yes
  | step same later => exact later

theorem run (agree : Agree text other) (test : Char → Bool) (asked : test ∈ tokenTests) :
    runLength test other = runLength test text ∧
      Agree (text.drop (runLength test text)) (other.drop (runLength test text)) := by
  induction agree with
  | stop first second =>
    rw [runLength_eq_zero.mpr (first test asked), runLength_eq_zero.mpr (second test asked)]
    exact ⟨rfl, .stop first second⟩
  | @step c d rest others same later ih =>
    have head : test c = test d := same test asked
    by_cases yes : test c = true
    · obtain ⟨length_eq, behind⟩ := ih
      rw [runLength_cons_of_mem rest yes, runLength_cons_of_mem others (head ▸ yes), length_eq,
        Nat.add_comm]
      exact ⟨rfl, behind⟩
    · have none : runLength test (c :: rest) = 0 :=
        runLength_eq_zero.mpr (Bool.eq_false_iff.mpr yes)
      have also : runLength test (d :: others) = 0 :=
        runLength_eq_zero.mpr (head.symm.trans (Bool.eq_false_iff.mpr yes))
      rw [none, also]
      exact ⟨rfl, .step same later⟩

end Agree

end QueryHighlight.Scan
