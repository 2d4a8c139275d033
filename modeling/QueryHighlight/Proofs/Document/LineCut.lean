import Mathlib.Data.List.Chain
import QueryHighlight.Proofs.Document.Lines
import QueryHighlight.Proofs.Text.Concatenation

/-!
What it takes to be the lines of a text. A cut is described by its places alone: every line stands
in the text at its offset, the first at the start, and from where a line stops to where the next
one starts there is one whole line end. A text has one such cut, and it has a line more than there
are line ends in the text, counted where each of them is over.
-/

namespace QueryHighlight.Text

/-- Offset of the first byte behind a line. -/
def Line.stop (line : Line) : Nat := line.offset + line.text.utf8ByteSize

/-- From a byte offset on the text is `rest`. -/
def RestAt (text : List Char) (offset : Nat) (rest : List Char) : Prop :=
  ∃ before, before ++ rest = text ∧ byteLength before = offset

/-- One line end fills the gap between two lines. A carriage return is the whole of it only if no
line feed follows. -/
def SplitByEnd (text : List Char) (line next : Line) : Prop :=
  ∃ (lineEnd : LineEnd) (rest : List Char),
    RestAt text line.stop (lineEnd.chars ++ rest) ∧
    next.offset = line.stop + byteLength lineEnd.chars ∧
    (lineEnd = .carriageReturn → rest.head? ≠ some '\n')

/-- The lines of a text from the byte `start` to its end. -/
structure IsCut (text : List Char) (start : Nat) (lines : List Line) : Prop where
  starts : lines.head?.map Line.offset = some start
  oneLine : ∀ line ∈ lines, IsOneLine line.text.toList
  stands : ∀ line ∈ lines, ∃ rest, RestAt text line.offset (line.text.toList ++ rest)
  split : lines.IsChain (SplitByEnd text)
  stops : lines.getLast?.map Line.stop = some (byteLength text)

/-- A line end is over with the first character. -/
def endsWithFirst : List Char → Bool
  | [] => false
  | c :: rest => c == '\n' || c == '\r' && rest.head? != some '\n'

/-- Number of line ends in a text. -/
def lineEndCount : List Char → Nat
  | [] => 0
  | c :: rest => lineEndCount rest + (endsWithFirst (c :: rest)).toNat

section Places

variable {text piece rest other : List Char} {offset : Nat}

theorem RestAt.start (text : List Char) : RestAt text 0 text := ⟨[], rfl, rfl⟩

theorem RestAt.behind (found : RestAt text offset (piece ++ rest)) :
    RestAt text (offset + byteLength piece) rest := by
  obtain ⟨before, whole, length⟩ := found
  refine ⟨before ++ piece, ?_, ?_⟩
  · rw [List.append_assoc, whole]
  · rw [byteLength_append, length]

/-- There is no more than one rest at an offset. -/
theorem RestAt.unique (found : RestAt text offset rest) (again : RestAt text offset other) :
    rest = other := by
  obtain ⟨before, rfl, rfl⟩ := found
  obtain ⟨before', whole, length⟩ := again
  have dropped := dropBytes_append before' other
  rw [whole, length, dropBytes_append] at dropped
  exact dropped

theorem RestAt.length (found : RestAt text offset rest) :
    offset + byteLength rest = byteLength text := by
  obtain ⟨before, rfl, rfl⟩ := found
  rw [byteLength_append]

end Places

/-- A text taken apart line by line, as it stands from an offset on. -/
inductive CutsInto : Nat → List Char → List Line → Prop
  | last {offset : Nat} {line : List Char} (oneLine : IsOneLine line) :
      CutsInto offset line [⟨offset, String.ofList line⟩]
  | cons {offset : Nat} {line rest : List Char} {lines : List Line} (oneLine : IsOneLine line)
      (lineEnd : LineEnd) (whole : lineEnd = .carriageReturn → rest.head? ≠ some '\n')
      (later : CutsInto (offset + byteLength line + byteLength lineEnd.chars) rest lines) :
      CutsInto offset (line ++ (lineEnd.chars ++ rest)) (⟨offset, String.ofList line⟩ :: lines)

variable {text : List Char} {start : Nat} {lines : List Line}

theorem Line.stop_ofList (offset : Nat) (line : List Char) :
    Line.stop ⟨offset, String.ofList line⟩ = offset + byteLength line :=
  congrArg (offset + ·) (utf8ByteSize_ofList line)

/-- Taken apart line by line, a text is cut as its places say. -/
theorem CutsInto.isCut {rest : List Char} (cuts : CutsInto start rest lines)
    (found : RestAt text start rest) : IsCut text start lines := by
  induction cuts with
  | @last offset line oneLine =>
    refine ⟨rfl, ?_, ?_, .singleton _, ?_⟩
    · intro other member
      rw [List.mem_singleton.mp member, String.toList_ofList]
      exact oneLine
    · intro other member
      rw [List.mem_singleton.mp member, String.toList_ofList]
      exact ⟨[], by rwa [List.append_nil]⟩
    · rw [List.getLast?_singleton, Option.map_some, Line.stop_ofList, found.length]
  | @cons offset line rest lines oneLine lineEnd whole later ih =>
    have behind := found.behind
    have cut := ih behind.behind
    obtain ⟨next, others, rfl⟩ : ∃ next others, lines = next :: others := by
      cases later <;> exact ⟨_, _, rfl⟩
    refine ⟨rfl, ?_, ?_, ?_, ?_⟩
    · refine List.forall_mem_cons.mpr ⟨?_, cut.oneLine⟩
      rwa [String.toList_ofList]
    · refine List.forall_mem_cons.mpr ⟨?_, cut.stands⟩
      exact ⟨_, by rwa [String.toList_ofList]⟩
    · refine List.isChain_cons_cons.mpr ⟨⟨lineEnd, rest, ?_, ?_, whole⟩, cut.split⟩
      · rwa [Line.stop_ofList]
      · rw [Line.stop_ofList]
        exact Option.some.inj cut.starts
    · rw [List.getLast?_cons_cons]
      exact cut.stops

theorem IsCut.behind {line next : Line} {others : List Line}
    (cut : IsCut text start (line :: next :: others)) : IsCut text next.offset (next :: others) where
  starts := rfl
  oneLine := (List.forall_mem_cons.mp cut.oneLine).2
  stands := (List.forall_mem_cons.mp cut.stands).2
  split := (List.isChain_cons_cons.mp cut.split).2
  stops := by rw [← cut.stops, List.getLast?_cons_cons]

/-- The places of a cut leave no choice in taking the text apart. -/
theorem IsCut.cutsInto {rest : List Char} (cut : IsCut text start lines)
    (found : RestAt text start rest) : CutsInto start rest lines := by
  induction lines generalizing start rest with
  | nil => cases cut.starts
  | cons line later ih =>
    obtain ⟨offset, content⟩ := line
    obtain rfl : offset = start := Option.some.inj cut.starts
    obtain ⟨after, standing⟩ := cut.stands _ List.mem_cons_self
    obtain rfl : content.toList ++ after = rest := standing.unique found
    have oneLine := cut.oneLine _ List.mem_cons_self
    have stop_eq : Line.stop ⟨offset, content⟩ = offset + byteLength content.toList :=
      congrArg (offset + ·) (utf8ByteSize_eq_byteLength content)
    cases later with
    | nil =>
      have atEnd : Line.stop ⟨offset, content⟩ = byteLength text := Option.some.inj cut.stops
      have length : offset + byteLength content.toList + byteLength after = byteLength text :=
        standing.behind.length
      obtain rfl : after = [] := by
        rw [stop_eq] at atEnd
        apply byteLength_eq_zero.mp
        omega
      have last : CutsInto offset content.toList _ := .last oneLine
      rwa [String.ofList_toList, ← List.append_nil content.toList] at last
    | cons next others =>
      obtain ⟨lineEnd, further, ending, next_eq, whole⟩ :=
        (List.isChain_cons_cons.mp cut.split).1
      rw [stop_eq] at ending next_eq
      obtain rfl : lineEnd.chars ++ further = after := ending.unique standing.behind
      have cuts := ih cut.behind (by rw [next_eq]; exact ending.behind)
      rw [next_eq] at cuts
      have both := CutsInto.cons oneLine lineEnd whole cuts
      rwa [String.ofList_toList] at both

/-- The lines of segments that stand in a text from an offset on. -/
def Segments.linesAt (offset : Nat) (segments : Segments) : List Line :=
  ⟨offset, String.ofList segments.first⟩ ::
    linesFrom (offset + byteLength segments.first) segments.others

namespace Segments

theorem splitLines_eq_linesAt (text : String) :
    splitLines text = (ofText text.toList).linesAt 0 := by
  rw [splitLines, linesAt, Nat.zero_add]

theorem length_linesFrom (offset : Nat) (others : List (LineEnd × List Char)) :
    (linesFrom offset others).length = others.length := by
  induction others generalizing offset with
  | nil => rfl
  | cons other later ih => rw [linesFrom, List.length_cons, ih, List.length_cons]

theorem ofText_lineEnd {lineEnd : LineEnd} {rest : List Char}
    (whole : lineEnd = .carriageReturn → rest.head? ≠ some '\n') :
    ofText (lineEnd.chars ++ rest) = (ofText rest).behind lineEnd := by
  cases lineEnd with
  | lineFeed => exact ofText_lineFeed rest
  | both => exact ofText.eq_2 rest
  | carriageReturn =>
    cases rest with
    | nil => rfl
    | cons c rest =>
      apply ofText_carriageReturn
      rintro rfl
      exact whole rfl rfl

/-- A line is told apart from what follows its end. -/
theorem ofText_line {line rest : List Char} {lineEnd : LineEnd} (oneLine : IsOneLine line)
    (whole : lineEnd = .carriageReturn → rest.head? ≠ some '\n') :
    ofText (line ++ (lineEnd.chars ++ rest)) =
      ⟨line, (lineEnd, (ofText rest).first) :: (ofText rest).others⟩ := by
  induction line with
  | nil => exact ofText_lineEnd whole
  | cons c line ih =>
    obtain ⟨⟨noFeed, noReturn⟩, later⟩ := List.forall_mem_cons.mp oneLine
    rw [List.cons_append, ofText_cons noFeed noReturn, ih later]
    rfl

theorem length_others_ofText (text : List Char) :
    (ofText text).others.length = lineEndCount text := by
  fun_induction ofText text with
  | case1 => rfl
  | case2 rest ih =>
    rw [behind, List.length_cons, ih]
    rfl
  | case3 rest single ih =>
    have alone : rest.head? ≠ some '\n' := by
      intro feed
      obtain ⟨others, rfl⟩ := List.head?_eq_some_iff.mp feed
      exact single others rfl
    have ended : endsWithFirst ('\r' :: rest) = true := by simp [endsWithFirst, alone]
    rw [behind, List.length_cons, ih, lineEndCount, ended]
    rfl
  | case4 rest ih =>
    rw [behind, List.length_cons, ih]
    rfl
  | case5 c rest _ noReturn noFeed ih =>
    have goesOn : endsWithFirst (c :: rest) = false := by
      rw [endsWithFirst, beq_false_of_ne noFeed, beq_false_of_ne noReturn]
      rfl
    rw [extend, ih, lineEndCount, goesOn]
    rfl

end Segments

theorem exists_cutsInto (offset : Nat) (text : List Char) : ∃ lines, CutsInto offset text lines := by
  fun_induction Segments.ofText text generalizing offset with
  | case1 => exact ⟨_, .last isOneLine_nil⟩
  | case2 rest ih =>
    obtain ⟨lines, cuts⟩ := ih (offset + 0 + 2)
    exact ⟨_, .cons isOneLine_nil .both (fun same => absurd same (by decide)) cuts⟩
  | case3 rest single ih =>
    obtain ⟨lines, cuts⟩ := ih (offset + 0 + 1)
    refine ⟨_, .cons isOneLine_nil .carriageReturn (fun _ feed => ?_) cuts⟩
    obtain ⟨others, rfl⟩ := List.head?_eq_some_iff.mp feed
    exact single others rfl
  | case4 rest ih =>
    obtain ⟨lines, cuts⟩ := ih (offset + 0 + 1)
    exact ⟨_, .cons isOneLine_nil .lineFeed (fun same => absurd same (by decide)) cuts⟩
  | case5 c rest _ noReturn noFeed ih =>
    -- The first line of the rest grows by the character.
    obtain ⟨lines, cuts⟩ := ih (offset + c.utf8Size)
    cases cuts with
    | last oneLine => exact ⟨_, .last (List.forall_mem_cons.mpr ⟨⟨noFeed, noReturn⟩, oneLine⟩)⟩
    | @cons _ line rest lines oneLine lineEnd whole later =>
      rw [Nat.add_assoc offset, ← byteLength_cons] at later
      exact ⟨_, .cons (List.forall_mem_cons.mpr ⟨⟨noFeed, noReturn⟩, oneLine⟩) lineEnd whole later⟩

/-- However a text is taken apart, its lines come out. -/
theorem CutsInto.eq_linesAt {rest : List Char} (cuts : CutsInto start rest lines) :
    lines = (Segments.ofText rest).linesAt start := by
  induction cuts with
  | last oneLine =>
    rw [Segments.ofText_of_isOneLine oneLine]
    rfl
  | cons oneLine lineEnd whole _ ih =>
    rw [Segments.ofText_line oneLine whole, ih]
    rfl

theorem isCut_iff (text : String) (lines : List Line) :
    IsCut text.toList 0 lines ↔ lines = splitLines text := by
  have found := RestAt.start text.toList
  rw [Segments.splitLines_eq_linesAt]
  constructor
  · intro cut
    exact (cut.cutsInto found).eq_linesAt
  · rintro rfl
    obtain ⟨lines, cuts⟩ := exists_cutsInto 0 text.toList
    rw [← cuts.eq_linesAt]
    exact cuts.isCut found

theorem length_splitLines (text : String) :
    (splitLines text).length = (Segments.ofText text.toList).others.length + 1 := by
  rw [splitLines, List.length_cons, Segments.length_linesFrom]

/-- Cutting a text into lines undoes the joining of lines by the line ends of the text. The lines
are the one list that cuts the text at whole line ends from its first byte to its last; joined by
the ends between them, of which the text has one less than lines, they are the text again. -/
theorem splitLines_undoes_joining (text : String) :
    (∀ lines, IsCut text.toList 0 lines ↔ lines = splitLines text) ∧
    (∀ line ∈ splitLines text, line.offset ≤ text.utf8ByteSize) ∧
    ∃ segments : Segments,
      segments.toText = text.toList ∧
      (splitLines text).map Line.text = segments.lines.map String.ofList ∧
      segments.others.length = lineEndCount text.toList ∧
      (splitLines text).length = lineEndCount text.toList + 1 := by
  have cut := (isCut_iff text _).mpr rfl
  have count := Segments.length_others_ofText text.toList
  refine ⟨isCut_iff text, ?_, Segments.ofText text.toList, ?_, ?_, count, ?_⟩
  · intro line member
    obtain ⟨rest, standing⟩ := cut.stands line member
    rw [utf8ByteSize_eq_byteLength, ← standing.length]
    exact Nat.le_add_right _ _
  · exact Segments.toText_ofText text.toList
  · exact map_text_splitLines text
  · rw [length_splitLines, count]

/-- All three line ends stand here, two of them side by side and the last one at the end. -/
theorem splitLines_undoes_joining_mixed_ends :
    let text := "é\r\n\nb\r"
    let lines : List Line := [⟨0, "é"⟩, ⟨4, ""⟩, ⟨5, "b"⟩, ⟨7, ""⟩]
    lines = splitLines text ∧ IsCut text.toList 0 lines ∧
      (⟨7, ""⟩ ∈ splitLines text ∧ 7 ≤ text.utf8ByteSize) := by
  intro text lines
  have same : lines = splitLines text := by decide +kernel
  have member : (⟨7, ""⟩ : Line) ∈ splitLines text := by
    rw [← same]
    decide
  obtain ⟨cut_iff, inside, -⟩ := splitLines_undoes_joining text
  exact ⟨same, (cut_iff lines).mpr same, member, inside _ member⟩

end QueryHighlight.Text
