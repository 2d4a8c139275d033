import QueryHighlight.Proofs.Cursor.Characters
import QueryHighlight.Text.Classes

/-!
Line terminators among the bytes of a line. The search looks at bytes, leaps over most of them and
goes on inside of characters. It is not misled there, because no byte inside of a character could
start an encoding, and it leaps over nothing, because no line terminator starts with a byte that
it leaps over.
-/

namespace QueryHighlight.Cursor
open Text

variable {ahead rest : List UInt8} {byte : UInt8}

theorem isTerminator_iff {c : Char} :
    isTerminator c = true ↔ c = '\n' ∨ c = '\r' ∨ c = '\u2028' ∨ c = '\u2029' := by
  simp only [isTerminator, Bool.or_eq_true, beq_iff_eq, or_assoc]

/-- A line terminator is told by the bytes of its encoding, all of which have to be there. -/
theorem startsTerminator_iff :
    startsTerminator ahead = true ↔
      ∃ c, isTerminator c = true ∧ String.utf8EncodeChar c <+: ahead := by
  constructor
  · intro starts
    unfold startsTerminator at starts
    split at starts
    next last rest =>
      rw [Bool.or_eq_true, beq_iff_eq, beq_iff_eq] at starts
      rcases starts with rfl | rfl
      · exact ⟨'\u2028', rfl, rest, rfl⟩
      · exact ⟨'\u2029', rfl, rest, rfl⟩
    next first rest _ =>
      rw [Bool.or_eq_true, beq_iff_eq, beq_iff_eq] at starts
      rcases starts with rfl | rfl
      · exact ⟨'\n', rfl, rest, rfl⟩
      · exact ⟨'\r', rfl, rest, rfl⟩
    next => exact absurd starts Bool.false_ne_true
  · rintro ⟨c, terminates, rest, rfl⟩
    rcases isTerminator_iff.mp terminates with rfl | rfl | rfl | rfl <;> rfl

theorem startsTerminator_utf8EncodeChar_append (c : Char) (rest : List UInt8) :
    startsTerminator (String.utf8EncodeChar c ++ rest) = isTerminator c := by
  rw [Bool.eq_iff_iff, startsTerminator_iff]
  constructor
  · rintro ⟨d, terminates, begins⟩
    rwa [← eq_of_utf8EncodeChar_prefix begins]
  · intro terminates
    exact ⟨c, terminates, List.prefix_append _ _⟩

/-- No line terminator starts inside of a character. -/
theorem startsTerminator_of_not_first (inside : ¬byte.IsUTF8FirstByte) :
    startsTerminator (byte :: rest) = false := by
  rw [Bool.eq_false_iff, ne_eq, startsTerminator_iff]
  rintro ⟨c, -, begins⟩
  obtain ⟨lead, others, encoded, first, -⟩ := exists_encoding c
  rw [encoded] at begins
  obtain ⟨rfl, -⟩ := List.cons_prefix_cons.mp begins
  exact inside first

theorem mayStartTerminator_of_starts (starts : startsTerminator (byte :: rest) = true) :
    mayStartTerminator byte = true := by
  obtain ⟨c, terminates, begins⟩ := startsTerminator_iff.mp starts
  rcases isTerminator_iff.mp terminates with rfl | rfl | rfl | rfl <;>
    obtain ⟨rfl, -⟩ := List.cons_prefix_cons.mp begins <;> rfl

theorem hasTerminator_congr {other : List UInt8} (same : toCandidate ahead = toCandidate other) :
    hasTerminator ahead = hasTerminator other := by
  cases found : toCandidate other with
  | nil => rw [hasTerminator_of_absent found, hasTerminator_of_absent (same.trans found)]
  | cons byte rest => rw [hasTerminator_of_found found, hasTerminator_of_found (same.trans found)]

/-- To leap comes to the same as to try every byte. -/
theorem hasTerminator_cons (byte : UInt8) (rest : List UInt8) :
    hasTerminator (byte :: rest) = (startsTerminator (byte :: rest) || hasTerminator rest) := by
  cases candidate : mayStartTerminator byte with
  | true =>
    apply hasTerminator_of_found
    exact List.dropWhile_cons_of_neg (by rw [candidate]; exact Bool.false_ne_true)
  | false =>
    have leapt : toCandidate (byte :: rest) = toCandidate rest :=
      List.dropWhile_cons_of_pos (by rw [candidate]; rfl)
    have starts : startsTerminator (byte :: rest) = false := by
      rw [Bool.eq_false_iff]
      intro starts
      rw [mayStartTerminator_of_starts starts] at candidate
      cases candidate
    rw [starts, Bool.false_or, hasTerminator_congr leapt]

theorem hasTerminator_append_of_not_first {others : List UInt8}
    (inside : ∀ byte ∈ others, ¬byte.IsUTF8FirstByte) :
    hasTerminator (others ++ rest) = hasTerminator rest := by
  induction others with
  | nil => rfl
  | cons byte others ih =>
    obtain ⟨here, later⟩ := List.forall_mem_cons.mp inside
    rw [List.cons_append, hasTerminator_cons, startsTerminator_of_not_first here, Bool.false_or,
      ih later]

/-- Among the bytes of a text there is a line terminator exactly if one is among its characters. -/
theorem hasTerminator_bytes (text : List Char) :
    hasTerminator (bytes text) = text.any isTerminator := by
  induction text with
  | nil => exact hasTerminator_of_absent rfl
  | cons c text ih =>
    -- The first byte of the character decides; behind it nothing starts before the next one.
    obtain ⟨lead, others, encoded, -, inside⟩ := exists_encoding c
    have starts := startsTerminator_utf8EncodeChar_append c (bytes text)
    rw [encoded, List.cons_append] at starts
    rw [bytes_cons, encoded, List.cons_append, hasTerminator_cons, starts,
      hasTerminator_append_of_not_first inside, ih, List.any_cons]

/-- At any character boundary of its line a cursor comes to the end of the search, and it finds a
line terminator if and only if the characters from there to the end of the line have one. -/
theorem terminatorAhead_iff_decoded (line : String) (cursor : Cursor)
    (inLine : cursor.line = (ofLine line).line)
    (boundary : String.Pos.Raw.IsValid line ⟨cursor.position⟩) :
    ∃ rest, String.fromUTF8? cursor.unread.toByteArray = some rest ∧
      (cursor.terminatorAhead = true ↔
        ∃ c ∈ rest.toList, c = '\n' ∨ c = '\r' ∨ c = '\u2028' ∨ c = '\u2029') := by
  obtain ⟨before, ⟨after, split⟩, place⟩ := isValid_iff_prefix.mp boundary
  have parts : cursor.Parts before after := ⟨by rw [split]; exact inLine, place.symm⟩
  refine ⟨String.ofList after, ?_, ?_⟩
  · rw [parts.unread_eq, fromUTF8?_bytes]
  · rw [terminatorAhead, parts.unread_eq, hasTerminator_bytes, String.toList_ofList,
      List.any_eq_true]
    simp only [isTerminator_iff]

/-- Three bytes that start like a separator stand before the separator here, and the search from
behind the first character tries both of them. -/
theorem terminatorAhead_iff_decoded_behind_ellipsis :
    let line := "é…\u2029"
    let cursor := (ofLine line).advance 2
    cursor.line = (ofLine line).line ∧ String.Pos.Raw.IsValid line ⟨cursor.position⟩ ∧
      cursor.terminatorAhead = true ∧
      ∃ rest, String.fromUTF8? cursor.unread.toByteArray = some rest ∧
        (cursor.terminatorAhead = true ↔
          ∃ c ∈ rest.toList, c = '\n' ∨ c = '\r' ∨ c = '\u2028' ∨ c = '\u2029') := by
  intro line cursor
  have split : line.toList = ['é'] ++ ['…', '\u2029'] := by decide
  have boundary : String.Pos.Raw.IsValid line ⟨2⟩ := isValid_of_split split
  obtain ⟨rest, decoded, found⟩ := terminatorAhead_iff_decoded line cursor rfl boundary
  have rest_eq : rest = "…\u2029" := by
    have start := parts_ofLine line
    rw [split] at start
    have unread : cursor.unread = bytes ['…', '\u2029'] := start.advance.unread_eq
    rw [unread, fromUTF8?_bytes] at decoded
    exact (Option.some.inj decoded).symm
  refine ⟨rfl, boundary, found.mpr ⟨'\u2029', ?_, by decide⟩, rest, decoded, found⟩
  rw [rest_eq]
  decide

end QueryHighlight.Cursor
