import QueryHighlight.Proofs.Document.Coverage
import QueryHighlight.Proofs.Document.Lines
import QueryHighlight.Proofs.Report.Calls
import QueryHighlight.Proofs.Text.Unquoting
import QueryHighlight.Report.Listing

/-!
The listing is read back. A row has one line feed, at its end, and everything in it can be told
apart: numbers end where no digit follows, a scope has no space, and a text ends at its closing
quote. So the rows give the tokens of a document in order, each with its line, and with them the
lines.
-/

namespace QueryHighlight
open Text

namespace ListingEmitter

/-- What the rows of a listing are about: the tokens in order, each with the number of its line. -/
def rowsOf (lines : List DocumentLine) : List (Nat × Token) :=
  lines.flatMap fun line => line.tokens.map fun token => (line.number, token)

/-- The text of one line, put together from the rows that are about it. -/
def textOn (number : Nat) (rows : List (Nat × Token)) : String :=
  String.join ((rows.filter fun (other, _) => other == number).map fun (_, token) => token.text)

/-- The text behind a mark that stands at its head. -/
def behind? (mark : Char) : List Char → Option (List Char)
  | [] => none
  | c :: rest => if c = mark then some rest else none

/-- A number at the head of a text, and the text behind it. -/
def readNumber (text : List Char) : Nat × List Char :=
  (Nat.ofDigitChars 10 (text.takeWhile Char.isDigit) 0, text.dropWhile Char.isDigit)

def readSpan (text : List Char) : Option (Span × List Char) := do
  let (start, rest) := readNumber text
  let rest ← behind? '.' rest
  let rest ← behind? '.' rest
  let (stop, rest) := readNumber rest
  return (⟨start, stop⟩, rest)

def readKind (text : List Char) : Option (Kind × List Char) := do
  let kind ← Kind.ofScope? (String.ofList (text.takeWhile (· ≠ ' ')))
  return (kind, text.dropWhile (· ≠ ' '))

/-- A row at the head of a text, and the text behind it. Lines are counted from one in a row. -/
def readRow (text : List Char) : Option ((Nat × Token) × List Char) := do
  let (number, rest) := readNumber text
  let rest ← behind? ':' rest
  let (span, rest) ← readSpan rest
  let rest ← behind? ' ' rest
  let (kind, rest) ← readKind rest
  let rest ← behind? ' ' rest
  let rest ← behind? '"' rest
  let (characters, rest) ← unquoted rest
  let rest ← behind? '\n' rest
  return ((number - 1, ⟨kind, String.ofList characters, span⟩), rest)

/-- The rows of a text that has at most the given number of them. -/
def readRows : Nat → List Char → Option (List (Nat × Token))
  | _, [] => some []
  | 0, _ => none
  | count + 1, text => do
    let (row, rest) ← readRow text
    let later ← readRows count rest
    return row :: later

/-- The rows of a listing. A row takes at least a character. -/
def read (listing : String) : Option (List (Nat × Token)) :=
  readRows listing.length listing.toList

theorem behind?_cons (mark : Char) (rest : List Char) : behind? mark (mark :: rest) = some rest :=
  if_pos rfl

theorem readNumber_toDigits {rest : List Char} (ends : EndsDigits rest) (number : Nat) :
    readNumber (Nat.toDigits 10 number ++ rest) = (number, rest) := by
  rw [readNumber, takeWhile_toDigits ends, dropWhile_toDigits ends, Nat.ofDigitChars_ten_toDigits]

theorem toList_span_text (span : Span) :
    span.text.toList =
      Nat.toDigits 10 span.start ++ '.' :: '.' :: Nat.toDigits 10 span.stop := by
  rw [Span.text, String.toList_append, String.toList_append, toList_toString, toList_toString,
    List.append_assoc]
  rfl

theorem readSpan_text {rest : List Char} (ends : EndsDigits rest) (span : Span) :
    readSpan (span.text.toList ++ rest) = some (span, rest) := by
  have point : EndsDigits ('.' :: '.' :: (Nat.toDigits 10 span.stop ++ rest)) :=
    endsDigits_cons (by decide) _
  rw [toList_span_text, List.append_assoc, List.cons_append, List.cons_append, readSpan]
  simp only [readNumber_toDigits point, behind?_cons, readNumber_toDigits ends,
    Option.bind_eq_bind, Option.bind_some]
  rfl

theorem space_not_mem_scope (kind : Kind) : ' ' ∉ kind.scope.toList := by
  cases kind <;> decide

theorem readKind_scope (kind : Kind) (rest : List Char) :
    readKind (kind.scope.toList ++ ' ' :: rest) = some (kind, ' ' :: rest) := by
  have whole : ∀ c ∈ kind.scope.toList, decide (c ≠ ' ') = true := by
    intro c member
    exact decide_eq_true fun same => space_not_mem_scope kind (same ▸ member)
  rw [readKind, List.takeWhile_append_of_pos whole, List.dropWhile_append_of_pos whole,
    List.takeWhile_cons_of_neg (by decide), List.dropWhile_cons_of_neg (by decide),
    List.append_nil, String.ofList_toList, Kind.ofScope?_scope]
  rfl

theorem toList_row (number : Nat) (token : Token) :
    (row number token).toList =
      Nat.toDigits 10 (number + 1) ++ ':' :: (token.span.text.toList ++
        ' ' :: (token.kind.scope.toList ++
          ' ' :: '"' :: (token.text.toList.flatMap spelled ++ ['"', '\n']))) := by
  simp only [row, String.toList_append, toList_toString, quoted, quotedChars, String.toList_ofList,
    List.append_assoc]
  rfl

/-- A row is read back, whatever follows it. -/
theorem readRow_row (number : Nat) (token : Token) (rest : List Char) :
    readRow ((row number token).toList ++ rest) = some ((number, token), rest) := by
  rw [toList_row]
  simp only [List.append_assoc, List.cons_append, List.nil_append]
  rw [readRow, readNumber_toDigits (endsDigits_cons (by decide) _)]
  simp only [behind?_cons, readSpan_text (endsDigits_cons (by decide : ' '.isDigit = false) _),
    readKind_scope, unquoted_flatMap_spelled, String.ofList_toList, Option.bind_eq_bind,
    Option.bind_some]
  rfl

theorem count_lineFeed_row (number : Nat) (token : Token) :
    (row number token).toList.count '\n' = 1 := by
  have noDigit (number : Nat) : (Nat.toDigits 10 number).count '\n' = 0 :=
    List.count_eq_zero.mpr fun member => absurd (isDigit_of_mem_toDigits member) (by decide)
  have noScope : token.kind.scope.toList.count '\n' = 0 := by cases token.kind <;> decide
  have noText : (token.text.toList.flatMap spelled).count '\n' = 0 :=
    List.count_eq_zero.mpr (lineFeed_not_mem_flatMap_spelled _)
  simp [toList_row, toList_span_text, noDigit, noScope, noText]

/-- The listing with the given rows. -/
def listed (rows : List (Nat × Token)) : String :=
  String.join (rows.map fun (number, token) => row number token)

theorem toList_listed_cons (number : Nat) (token : Token) (later : List (Nat × Token)) :
    (listed ((number, token) :: later)).toList =
      (row number token).toList ++ (listed later).toList := by
  rw [listed, List.map_cons, String.join_cons, String.toList_append]
  rfl

theorem count_lineFeed_listed (rows : List (Nat × Token)) :
    (listed rows).toList.count '\n' = rows.length := by
  induction rows with
  | nil => rfl
  | cons first later ih =>
    rw [toList_listed_cons, List.count_append, count_lineFeed_row, ih, List.length_cons,
      Nat.add_comm]

theorem readRows_listed {count : Nat} {rows : List (Nat × Token)} (enough : rows.length ≤ count) :
    readRows count (listed rows).toList = some rows := by
  induction rows generalizing count with
  | nil => cases count <;> rfl
  | cons first later ih =>
    obtain ⟨number, token⟩ := first
    obtain ⟨count, rfl⟩ : ∃ less, count = less + 1 := by
      rw [List.length_cons] at enough
      exact ⟨count - 1, by omega⟩
    have more := ih (Nat.le_of_succ_le_succ enough)
    have step := readRow_row number token (listed later).toList
    rw [toList_listed_cons]
    have nonempty : (row number token).toList ++ (listed later).toList ≠ [] := by
      simp [toList_row]
    rw [readRows]
    · simp only [step, more, Option.bind_eq_bind, Option.bind_some]
      rfl
    · exact nonempty

/-- A listing is read back: it has a character for each of its rows, since it has a line feed. -/
theorem read_listed (rows : List (Nat × Token)) : read (listed rows) = some rows := by
  apply readRows_listed
  calc rows.length = (listed rows).toList.count '\n' := (count_lineFeed_listed rows).symm
    _ ≤ (listed rows).toList.length := List.count_le_length
    _ = (listed rows).length := String.length_toList

theorem listed_inj {first second : List (Nat × Token)} :
    listed first = listed second ↔ first = second := by
  constructor
  · intro same
    have rows := congrArg read same
    rw [read_listed, read_listed] at rows
    exact Option.some.inj rows
  · intro same
    rw [same]

theorem listed_append (first second : List (Nat × Token)) :
    listed (first ++ second) = listed first ++ listed second := by
  rw [listed, List.map_append, String.join_append]
  rfl

/-- No call matters to the rows but the lines that it emits. -/
theorem replay_listing (emitter : ListingEmitter) (events : List Event) :
    (replay emitter events).2 = listed (rowsOf (events.filterMap Event.line?)) := by
  induction events generalizing emitter with
  | nil => rfl
  | cons event later ih =>
    rw [text_replay_cons, ih]
    cases event with
    | emitted line =>
      have here : ((Event.emitted line).perform emitter).2 =
          listed (line.tokens.map fun token => (line.number, token)) := by
        rw [listed, List.map_map]
        rfl
      rw [here, ← listed_append]
      rfl
    | finished => exact String.empty_append

theorem written_listing (calls : List Call) :
    written ({} : ListingEmitter) calls = listed (rowsOf (emittedLines calls)) := by
  rw [written_eq_replay, replay_listing, emittedLines]

theorem report_listing (lines : List DocumentLine) :
    report ({} : ListingEmitter) lines = listed (rowsOf lines) := by
  rw [report_eq_written, written_listing, emittedLines_document]

theorem length_rowsOf (lines : List DocumentLine) :
    (rowsOf lines).length = (lines.flatMap DocumentLine.tokens).length := by
  simp [rowsOf, List.length_flatMap]

/-- No row of other lines has the number of a line that is none of them. -/
theorem filter_rowsOf_eq_nil {number : Nat} {lines : List DocumentLine}
    (absent : number ∉ lines.map DocumentLine.number) :
    ((rowsOf lines).filter fun (other, _) => other == number) = [] := by
  refine List.filter_eq_nil_iff.mpr fun (other, token) member same => absent ?_
  obtain ⟨line, present, listed⟩ := List.mem_flatMap.mp member
  obtain ⟨_, _, row_eq⟩ := List.mem_map.mp listed
  have number_eq : line.number = number := by
    rw [← beq_iff_eq.mp same]
    exact (Prod.mk.inj row_eq).1
  exact number_eq ▸ List.mem_map_of_mem present

/-- The rows about a line are the tokens on it, if no other line has its number. -/
theorem textOn_rowsOf {line : DocumentLine} {lines : List DocumentLine}
    (distinct : (lines.map DocumentLine.number).Nodup) (member : line ∈ lines) :
    textOn line.number (rowsOf lines) = line.text := by
  induction lines with
  | nil => cases member
  | cons first later ih =>
    rw [List.map_cons, List.nodup_cons] at distinct
    obtain ⟨alone, others⟩ := distinct
    rw [textOn, rowsOf, List.flatMap_cons, List.filter_append, ← rowsOf]
    rcases List.mem_cons.mp member with rfl | behind
    · rw [filter_rowsOf_eq_nil alone, List.append_nil, List.filter_eq_self.mpr, List.map_map]
      · rfl
      · rintro _ listed
        obtain ⟨token, _, rfl⟩ := List.mem_map.mp listed
        exact beq_self_eq_true _
    · have other : first.number ≠ line.number := fun same =>
        alone (same ▸ List.mem_map_of_mem behind)
      rw [List.filter_eq_nil_iff.mpr, List.nil_append, ← ih others behind, textOn]
      rintro _ listed same
      obtain ⟨token, _, rfl⟩ := List.mem_map.mp listed
      exact other (beq_iff_eq.mp same)

/-- The rows of a document give its lines, those without tokens included. -/
theorem map_textOn_rowsOf (tokenizer : QueryTokenizer) (text : String) :
    (List.range (splitLines text).length).map
        (fun number => textOn number (rowsOf (tokenizeDocument tokenizer text))) =
      (splitLines text).map Line.text := by
  let lines := tokenizeDocument tokenizer text
  have texts : lines.map DocumentLine.text = (splitLines text).map Line.text :=
    map_text_numberLines tokenizer 0 .start (splitLines text)
  have length_eq : lines.length = (splitLines text).length := by
    rw [← List.length_map (f := DocumentLine.text), texts, List.length_map]
  have numbers : lines.map DocumentLine.number = List.range lines.length := by
    rw [List.range_eq_range']
    exact map_number_numberLines 0 _ _
  have distinct : (lines.map DocumentLine.number).Nodup := numbers ▸ List.nodup_range
  rw [← texts, ← length_eq, ← numbers, List.map_map]
  exact List.map_congr_left fun line member => textOn_rowsOf distinct member

/-- The listing of a document has one line feed for each token, and reading it gives the tokens in
order with the numbers of their lines. Hence documents with one listing have the same tokens on the
same lines, and the texts that are read for a line are the line. -/
theorem listing_reads_back (tokenizer : QueryTokenizer) (text : String) :
    let lines := tokenizeDocument tokenizer text
    let listing := report ({} : ListingEmitter) lines
    listing.toList.count '\n' = (lines.flatMap DocumentLine.tokens).length ∧
      read listing = some (rowsOf lines) ∧
      (∀ (other : QueryTokenizer) (otherText : String),
        report ({} : ListingEmitter) (tokenizeDocument other otherText) = listing ↔
          rowsOf (tokenizeDocument other otherText) = rowsOf lines) ∧
      (List.range (splitLines text).length).map (fun number => textOn number (rowsOf lines)) =
        (splitLines text).map Line.text := by
  intro lines listing
  have listing_eq : listing = listed (rowsOf lines) := report_listing lines
  refine ⟨?_, ?_, ?_, map_textOn_rowsOf tokenizer text⟩
  · rw [listing_eq, count_lineFeed_listed, length_rowsOf]
  · rw [listing_eq, read_listed]
  · intro other otherText
    rw [listing_eq, report_listing]
    exact listed_inj

end ListingEmitter

end QueryHighlight
