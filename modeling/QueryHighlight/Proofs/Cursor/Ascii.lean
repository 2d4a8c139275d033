import QueryHighlight.Proofs.Cursor.Characters
import QueryHighlight.Proofs.Cursor.Shift
import QueryHighlight.Proofs.Scan.Agreement

/-!
Tests for ASCII at a cursor. A byte is tested where a character starts, and it passes exactly if the
character is of the class, since no character beyond ASCII starts with a byte of ASCII. So a cursor
counts and passes characters of such classes as if it knew the characters of its line.
-/

namespace QueryHighlight
open Text Scan

/-- The class has characters of ASCII only, and not the null character, which reads like the end of
the line. -/
def AsciiOnly (isMember : Char → Bool) : Prop :=
  ∀ c, isMember c = true → 0 < c.val.toNat ∧ c.val.toNat ≤ 0x7f

theorem drop_succ_of_drop {text rest : List Char} {c : Char} {count : Nat}
    (behind : text.drop count = c :: rest) : text.drop (count + 1) = rest := by
  rw [← List.drop_drop, behind]
  rfl

/-- The next `count` characters are there, and they are of ASCII. -/
structure AsciiAhead (count : Nat) (text : List Char) : Prop where
  present : count ≤ text.length
  ascii : ∀ c ∈ text.take count, c.val.toNat ≤ 0x7f

section Classes

variable {isMember isOther : Char → Bool}

theorem asciiOnly_eq (only : Char) (ascii : 0 < only.val.toNat ∧ only.val.toNat ≤ 0x7f) :
    AsciiOnly (· == only) := by
  intro c member
  rwa [eq_of_beq member]

theorem AsciiOnly.or (first : AsciiOnly isMember) (second : AsciiOnly isOther) :
    AsciiOnly fun c => isMember c || isOther c := by
  intro c member
  rcases Bool.or_eq_true_iff.mp member with isFirst | isSecond
  · exact first c isFirst
  · exact second c isSecond

theorem asciiOnly_between {first last : Char}
    (ascii : 0 < first.val.toNat ∧ last.val.toNat ≤ 0x7f) :
    AsciiOnly fun c => first ≤ c && c ≤ last := by
  intro c member
  rw [Bool.and_eq_true, decide_eq_true_eq, decide_eq_true_eq, Char.le_def, Char.le_def,
    UInt32.le_iff_toNat_le, UInt32.le_iff_toNat_le] at member
  omega

theorem asciiOnly_isDigit : AsciiOnly Char.isDigit := by
  intro c member
  exact @asciiOnly_between '0' '9' (by decide) c member

theorem asciiOnly_isAlpha : AsciiOnly Char.isAlpha := by
  have upper : AsciiOnly Char.isUpper := by
    intro c member
    exact @asciiOnly_between 'A' 'Z' (by decide) c ((Bool.decide_and ..).symm.trans member)
  exact upper.or (@asciiOnly_between 'a' 'z' (by decide))

/-- The rules ask about no character beyond ASCII but for the end of a comment and for blanks. -/
theorem asciiOnly_of_mem_tokenTests : ∀ test ∈ tokenTests, AsciiOnly test := by
  have word : AsciiOnly isWord :=
    (asciiOnly_isAlpha.or asciiOnly_isDigit).or (asciiOnly_eq '_' (by decide))
  have nameStart : AsciiOnly isNameStart :=
    (asciiOnly_isAlpha.or (asciiOnly_eq '_' (by decide))).or (asciiOnly_eq '$' (by decide))
  have namePart : AsciiOnly isNamePart := word.or (asciiOnly_eq '$' (by decide))
  have hexDigit : AsciiOnly isHexDigit :=
    (asciiOnly_isDigit.or (asciiOnly_between (by decide))).or (asciiOnly_between (by decide))
  have octalDigit : AsciiOnly isOctalDigit := asciiOnly_between (by decide)
  have exponentMark : AsciiOnly isExponentMark :=
    (asciiOnly_eq 'e' (by decide)).or (asciiOnly_eq 'E' (by decide))
  have sign : AsciiOnly isSign := (asciiOnly_eq '+' (by decide)).or (asciiOnly_eq '-' (by decide))
  have openBracket : AsciiOnly isOpenBracket :=
    ((asciiOnly_eq '(' (by decide)).or (asciiOnly_eq '[' (by decide))).or
      (asciiOnly_eq '\x7b' (by decide))
  have closeBracket : AsciiOnly isCloseBracket :=
    ((asciiOnly_eq ')' (by decide)).or (asciiOnly_eq ']' (by decide))).or
      (asciiOnly_eq '\x7d' (by decide))
  have simpleEscape : AsciiOnly isSimpleEscape := by
    intro c member
    simp only [isSimpleEscape, Bool.or_eq_true, beq_iff_eq] at member
    rcases member with (((((((((rfl | rfl) | rfl) | rfl) | rfl) | rfl) | rfl) | rfl) | rfl) | rfl) <;>
      decide
  have digit := asciiOnly_isDigit
  intro test asked
  rcases List.mem_append.mp asked with isClass | isName
  · simp only [List.mem_cons, List.not_mem_nil, or_false] at isClass
    rcases isClass with rfl | rfl | rfl | rfl | rfl | rfl | rfl | rfl | rfl | rfl | rfl <;> assumption
  · obtain ⟨only, member, rfl⟩ := List.mem_map.mp isName
    have ascii : namedChars.all (fun only => 0 < only.val.toNat ∧ only.val.toNat ≤ 0x7f) := by
      decide
    exact asciiOnly_eq only (of_decide_eq_true (List.all_eq_true.mp ascii only member))

/-- The first byte of a character tells whether the character is of the class. -/
theorem isByteOf_lead (only : AsciiOnly isMember) {c : Char} {lead : UInt8} {others : List UInt8}
    (encoded : String.utf8EncodeChar c = lead :: others) :
    Cursor.isByteOf isMember lead = isMember c := by
  by_cases wide : 0x7f < c.val.toNat
  · have high : 0x80 ≤ lead.toNat := by
      apply le_toNat_of_mem_utf8EncodeChar wide
      rw [encoded]
      exact List.mem_cons_self
    have beyond : decide (lead < 0x80) = false := by
      rw [decide_eq_false_iff_not, UInt8.lt_iff_toNat_lt]
      exact Nat.not_lt.mpr high
    have noMember : isMember c = false := by
      rw [Bool.eq_false_iff]
      intro member
      exact absurd (only c member).2 (Nat.not_le.mpr wide)
    rw [Cursor.isByteOf, beyond, noMember, Bool.false_and]
  · have ascii : c.val.toNat ≤ 0x7f := Nat.not_lt.mp wide
    rw [utf8EncodeChar_ascii ascii] at encoded
    obtain ⟨rfl, -⟩ := List.cons.inj encoded
    have value : (UInt8.ofNat c.val.toNat).toNat = c.val.toNat := by
      rw [UInt8.toNat_ofNat']
      omega
    have small : decide (UInt8.ofNat c.val.toNat < 0x80) = true := by
      rw [decide_eq_true_eq, UInt8.lt_iff_toNat_lt, value]
      exact Nat.lt_succ_of_le ascii
    have same : Char.ofNat c.val.toNat = c := Char.ofNat_toNat c
    rw [Cursor.isByteOf, small, value, same, Bool.true_and]

theorem length_takeWhile_bytes (only : AsciiOnly isMember) (text : List Char) :
    ((bytes text).takeWhile (Cursor.isByteOf isMember)).length =
      (text.takeWhile isMember).length := by
  induction text with
  | nil => rfl
  | cons c text ih =>
    obtain ⟨lead, others, encoded, -⟩ := exists_encoding c
    have first := isByteOf_lead only encoded
    rw [bytes_cons, encoded, List.cons_append, List.takeWhile_cons, List.takeWhile_cons, first]
    by_cases member : isMember c = true
    · rw [utf8EncodeChar_ascii (only c member).2] at encoded
      obtain ⟨-, rfl⟩ := List.cons.inj encoded
      rw [if_pos member, if_pos member, List.nil_append, List.length_cons, List.length_cons, ih]
    · rw [if_neg member, if_neg member]
      rfl

end Classes

namespace AsciiAhead

variable {count further : Nat} {text : List Char} {isMember : Char → Bool}

theorem zero (text : List Char) : AsciiAhead 0 text := ⟨Nat.zero_le _, nofun⟩

theorem add (first : AsciiAhead count text) (second : AsciiAhead further (text.drop count)) :
    AsciiAhead (count + further) text where
  present := by
    have bound := second.present
    have present := first.present
    rw [List.length_drop] at bound
    omega
  ascii := by
    intro c member
    rw [List.take_add] at member
    rcases List.mem_append.mp member with early | late
    · exact first.ascii c early
    · exact second.ascii c late

theorem run (only : AsciiOnly isMember) (text : List Char) :
    AsciiAhead (text.takeWhile isMember).length text where
  present := (List.takeWhile_prefix _).length_le
  ascii := by
    intro c member
    rw [← List.prefix_iff_eq_take.mp (List.takeWhile_prefix isMember)] at member
    exact (only c (List.all_eq_true.mp List.all_takeWhile c member)).2

/-- One more character that is known to stand behind the others. -/
theorem succ (ahead : AsciiAhead count text) {c : Char} {rest : List Char}
    (behind : text.drop count = c :: rest) (ascii : c.val.toNat ≤ 0x7f) :
    AsciiAhead (count + 1) text := by
  apply ahead.add
  rw [behind]
  refine ⟨Nat.succ_le_succ (Nat.zero_le _), ?_⟩
  intro d present
  rw [List.take_succ_cons, List.take_zero, List.mem_singleton] at present
  exact present ▸ ascii

theorem one (only : AsciiOnly isMember) (starts : text.head?.any isMember = true) :
    AsciiAhead 1 text := by
  cases text with
  | nil => cases starts
  | cons c rest => exact (zero (c :: rest)).succ rfl (only c starts).2

theorem of_le (all : AsciiAhead further text) (inside : count ≤ further) :
    AsciiAhead count text where
  present := Nat.le_trans inside all.present
  ascii c member := all.ascii c (List.take_subset_take_left _ inside member)

theorem byteLength_eq_length {piece : List Char} (ascii : ∀ c ∈ piece, c.val.toNat ≤ 0x7f) :
    byteLength piece = piece.length := by
  induction piece with
  | nil => rfl
  | cons c rest ih =>
    obtain ⟨here, there⟩ := List.forall_mem_cons.mp ascii
    have width : c.utf8Size = 1 := by
      rw [← String.length_utf8EncodeChar, utf8EncodeChar_ascii here]
      rfl
    rw [byteLength_cons, ih there, width, List.length_cons, Nat.add_comm]

theorem byteLength_take (all : AsciiAhead count text) : byteLength (text.take count) = count := by
  rw [byteLength_eq_length all.ascii, List.length_take, Nat.min_eq_left all.present]

end AsciiAhead

namespace Cursor

theorem isWordByte_eq (byte : UInt8) : isWordByte byte = isByteOf isWord byte := by
  have every : ∀ n < 256, isWordByte (UInt8.ofNat n) = isByteOf isWord (UInt8.ofNat n) := by
    decide +kernel
  have known := every byte.toNat byte.toNat_lt
  rwa [UInt8.ofNat_toNat] at known

namespace Parts

variable {cursor : Cursor} {before after : List Char} {test : Char → Bool} {offset : Nat}

/-- Behind characters of ASCII a cursor may count in characters. -/
theorem advance_of_ascii (parts : cursor.Parts before after) (ascii : AsciiAhead offset after) :
    (cursor.advance offset).Parts (before ++ after.take offset) (after.drop offset) := by
  have split : cursor.Parts before (after.take offset ++ after.drop offset) := by
    rwa [List.take_append_drop]
  have moved := split.advance
  rwa [ascii.byteLength_take] at moved

theorem any_head?_unread (parts : cursor.Parts before after) (only : AsciiOnly test) :
    cursor.unread.head?.any (isByteOf test) = after.head?.any test := by
  rw [parts.unread_eq]
  cases after with
  | nil => rfl
  | cons c after =>
    obtain ⟨lead, others, encoded, -⟩ := exists_encoding c
    rw [bytes_cons, encoded]
    exact isByteOf_lead only encoded

theorem isByteOf_current (parts : cursor.Parts before after) (only : AsciiOnly test) :
    isByteOf test cursor.current = after.head?.any test := by
  rw [← parts.any_head?_unread only, current_eq_headD_unread]
  cases cursor.unread with
  | nil =>
    rw [Bool.eq_iff_iff]
    constructor
    · intro null
      have member : test '\x00' = true := (Bool.and_eq_true_iff.mp null).2
      exact absurd (only _ member).1 (Nat.lt_irrefl 0)
    · exact nofun
  | cons byte rest => rfl

/-- What stands behind characters of ASCII is tested as if it were counted in characters. -/
theorem isByteOf_peekAt (parts : cursor.Parts before after) (ascii : AsciiAhead offset after)
    (only : AsciiOnly test) : isByteOf test (cursor.peekAt offset) = (after[offset]?).any test := by
  rw [← List.head?_drop, ← (parts.advance_of_ascii ascii).isByteOf_current only]
  rfl

theorem countWhile_eq (parts : cursor.Parts before after) (ascii : AsciiAhead offset after)
    (only : AsciiOnly test) :
    cursor.countWhile offset (isByteOf test) = ((after.drop offset).takeWhile test).length := by
  rw [countWhile, (parts.advance_of_ascii ascii).unread_eq, length_takeWhile_bytes only]

theorem any_getElem?_unread (parts : cursor.Parts before after) (ascii : AsciiAhead offset after)
    (only : AsciiOnly test) :
    (cursor.unread[offset]?).any (isByteOf test) = (after[offset]?).any test := by
  have moved : (cursor.advance offset).unread = cursor.unread.drop offset := by
    rw [unread, unread, List.drop_drop]
    rfl
  have first := (parts.advance_of_ascii ascii).any_head?_unread only
  rwa [moved, List.head?_drop, List.head?_drop] at first

/-- A word boundary stands where it stands among the characters. -/
theorem boundaryAt_eq (parts : cursor.Parts before after) (ascii : AsciiAhead offset after)
    (positive : 0 < offset) : cursor.boundaryAt offset = Scan.boundaryAt after offset := by
  have word : AsciiOnly isWord := asciiOnly_of_mem_tokenTests _ (List.mem_cons_self)
  have sameByte : isWordByte = isByteOf isWord := funext isWordByte_eq
  rw [cursor.boundaryAt_eq positive, sameByte, parts.any_getElem?_unread ascii word,
    parts.any_getElem?_unread (ascii.of_le (Nat.sub_le offset 1)) word, Scan.boundaryAt]

end Parts

end Cursor

end QueryHighlight
