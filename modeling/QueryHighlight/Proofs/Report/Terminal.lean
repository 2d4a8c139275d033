import QueryHighlight.Proofs.Document.Lines
import QueryHighlight.Proofs.Report.Calls
import QueryHighlight.Proofs.Report.Styles
import QueryHighlight.Proofs.Report.Tiling

/-!
The query on a terminal is the query. Without colours the emitted lines come out one below the
other, whatever calls they were emitted in; a report that is finished behind a line with text ends
that line, so that a line emitted later leaves an empty one between them. With colours the same
text comes out, with every style taken back before its line ends.
-/

namespace QueryHighlight
open Text Terminal

/-- The texts of the emitted lines, each with whether the report was finished between it and the
next line. -/
def emittedTexts : List Event → List (String × Bool)
  | [] => []
  | .finished :: later => emittedTexts later
  | .emitted line :: later => (line.text, later.head? == some .finished) :: emittedTexts later

/-- The line feed that ends a line when the report is finished behind it. -/
def ending (text : String) (finished : Bool) : String :=
  if finished && !text.isEmpty then "\n" else ""

/-- Texts one below the other, with the endings that finishing the report has given them. -/
def plainText : List (String × Bool) → String
  | [] => ""
  | [(text, finished)] => text ++ ending text finished
  | (text, finished) :: next :: later =>
    text ++ ending text finished ++ "\n" ++ plainText (next :: later)

theorem plainText_cons (text : String) (finished other : Bool) (later : List (String × Bool)) :
    plainText ((text, finished) :: later) =
      text ++ ending text finished ++ plainText (("", other) :: later) := by
  have none (flag : Bool) : ending "" flag = "" := by cases flag <;> rfl
  cases later with
  | nil => simp [plainText, none]
  | cons next others => simp [plainText, none, String.append_assoc]

/-- The terminal emitter behind a line with the given text. -/
def TerminalEmitter.behind (colors : Bool) (text : String) : TerminalEmitter :=
  { colors, first := false, openLine := !text.isEmpty }

/-- A line as it is painted. -/
def paintedLine (colors : Bool) (line : DocumentLine) : String :=
  String.join (paintRuns colors line.text.toList
    (Highlight.coalesce (line.tokens.map Token.highlight)))

/-- The line's highlights lie one behind the other on its text, and its text is on one line. -/
structure DocumentLine.IsPaintable (line : DocumentLine) : Prop where
  tiled : Tiled 0 line.text.toList (Highlight.coalesce (line.tokens.map Token.highlight))
  oneLine : IsOneLine line.text.toList

theorem DocumentLine.IsOfDocument.isPaintable {line : DocumentLine} (known : line.IsOfDocument) :
    line.IsPaintable := by
  obtain ⟨chars, scanned⟩ := known.exists_isScanned
  have text_eq : line.text.toList = chars := by
    rw [scanned.text_eq, String.toList_ofList]
  obtain ⟨tokenizer, lexemes, tokens, texts⟩ := scanned.tokens_eq
  constructor
  · rw [text_eq, tokens, ← texts]
    exact tiled_coalesce (tiled_placed tokenizer 0 lexemes)
  · rw [text_eq]
    exact scanned.oneLine

section

variable {offset : Nat} {text rest : List Char} {runs : List Highlight}

theorem join_paintRuns_plain (tiled : Tiled offset text runs) :
    String.join (paintRuns false text runs) = String.ofList text := by
  induction tiled with
  | nil => rfl
  | @run offset piece rest runs kind later ih =>
    have length_eq : (⟨offset, offset + byteLength piece⟩ : Span).length = byteLength piece :=
      Nat.add_sub_cancel_left offset _
    rw [paintRuns, length_eq, takeBytes_append, dropBytes_append, String.join_cons, ih,
      String.ofList_append]
    rfl

theorem toList_join_paintRuns_cons {piece : List Char} (kind : Kind)
    (rest : List Char) (runs : List Highlight) :
    (String.join (paintRuns true (piece ++ rest)
        (⟨kind, ⟨offset, offset + byteLength piece⟩⟩ :: runs))).toList =
      (painted true kind piece).toList ++ (String.join (paintRuns true rest runs)).toList := by
  have length_eq : (⟨offset, offset + byteLength piece⟩ : Span).length = byteLength piece :=
    Nat.add_sub_cancel_left offset _
  rw [paintRuns, length_eq, takeBytes_append, dropBytes_append, String.join_cons,
    String.toList_append]

theorem deleteStyles_paintRuns (tiled : Tiled offset text runs) (plain : escape ∉ text) :
    deleteStyles ((String.join (paintRuns true text runs)).toList ++ rest) =
      text ++ deleteStyles rest := by
  induction tiled with
  | nil => rfl
  | @run offset piece behind runs kind later ih =>
    rw [List.mem_append, not_or] at plain
    rw [toList_join_paintRuns_cons, List.append_assoc, deleteStyles_painted kind plain.1,
      ih plain.2, List.append_assoc]

theorem stylesClosed_paintRuns (tiled : Tiled offset text runs) (closed : StylesClosed rest)
    (plain : escape ∉ text) (oneLine : IsOneLine text) :
    StylesClosed ((String.join (paintRuns true text runs)).toList ++ rest) := by
  induction tiled with
  | nil => exact closed
  | @run offset piece behind runs kind later ih =>
    rw [List.mem_append, not_or] at plain
    obtain ⟨first, others⟩ := isOneLine_append.mp oneLine
    rw [toList_join_paintRuns_cons, List.append_assoc]
    exact stylesClosed_painted kind (ih plain.2 others) plain.1 fun feed => (first _ feed).1 rfl

end

/-- Every line among the events can be painted. -/
def Paintable (events : List Event) : Prop :=
  ∀ line, Event.emitted line ∈ events → line.IsPaintable

/-- No line among the events has an escape on it. -/
def EscapeFree (events : List Event) : Prop :=
  ∀ line, Event.emitted line ∈ events → escape ∉ line.text.toList

theorem paintedLine_plain {line : DocumentLine} (paintable : line.IsPaintable) :
    paintedLine false line = line.text := by
  rw [paintedLine, join_paintRuns_plain paintable.tiled, String.ofList_toList]

theorem perform_emitted (emitter : TerminalEmitter) (line : DocumentLine) :
    Event.perform emitter (.emitted line) =
      (.behind emitter.colors line.text,
        (if emitter.first then "" else "\n") ++ paintedLine emitter.colors line) := rfl

/-- To finish a report is to end its last line, if that has text. -/
theorem perform_finished (colors : Bool) (text : String) :
    Event.perform (TerminalEmitter.behind colors text) .finished =
      (.behind colors "", ending text true) := by
  rw [ending, Bool.true_and]
  rfl

/-- What comes behind a line: the induction is on what happens next, for whatever text the line
had. Once the report is finished, it goes on as behind a line without text. -/
theorem replay_behind {events : List Event} (paintable : Paintable events) (text : String) :
    text ++ (replay (TerminalEmitter.behind false text) events).2 =
      plainText ((text, events.head? == some .finished) :: emittedTexts events) := by
  induction events generalizing text with
  | nil => simp [replay, emittedTexts, plainText, ending]
  | cons event later ih =>
    have rest : Paintable later := fun line member => paintable line (List.mem_cons_of_mem _ member)
    cases event with
    | emitted line =>
      have next := ih rest line.text
      have same := paintedLine_plain (paintable line List.mem_cons_self)
      have unfinished : (List.head? (.emitted line :: later) == some Event.finished) = false := rfl
      rw [text_replay_cons, perform_emitted, emittedTexts, unfinished, plainText, ← next]
      simp [TerminalEmitter.behind, same, ending, String.append_assoc]
    | finished =>
      have next := ih rest ""
      rw [String.empty_append] at next
      rw [text_replay_cons, perform_finished, next, emittedTexts,
        plainText_cons text _ (later.head? == some .finished)]
      simp [String.append_assoc]

/-- From its start the plain report is the emitted texts; finishing it before there is a line
writes nothing. -/
theorem replay_plain {events : List Event} (paintable : Paintable events) :
    (replay ({ colors := false } : TerminalEmitter) events).2 =
      plainText (emittedTexts events) := by
  induction events with
  | nil => rfl
  | cons event later ih =>
    have rest : Paintable later := fun line member => paintable line (List.mem_cons_of_mem _ member)
    cases event with
    | emitted line =>
      have same := paintedLine_plain (paintable line List.mem_cons_self)
      rw [text_replay_cons, perform_emitted, emittedTexts, ← replay_behind rest]
      simp [same]
    | finished =>
      rw [emittedTexts, ← ih rest]
      exact String.empty_append

theorem escape_not_mem_lineFeed (present : Bool) :
    escape ∉ (if present then "" else "\n").toList := by
  cases present <;> decide

/-- The colours change what is written only by style sequences. Both emitters go through the same
states, so this holds from any of them. -/
theorem deleteStyles_replay {events : List Event} (paintable : Paintable events)
    (plain : EscapeFree events) (first openLine : Bool) :
    deleteStyles (replay (⟨true, first, openLine⟩ : TerminalEmitter) events).2.toList =
      (replay (⟨false, first, openLine⟩ : TerminalEmitter) events).2.toList := by
  induction events generalizing first openLine with
  | nil => rw [replay, replay, deleteStyles.eq_def]; rfl
  | cons event later ih =>
    have rest : Paintable later := fun line member => paintable line (List.mem_cons_of_mem _ member)
    have others : EscapeFree later := fun line member => plain line (List.mem_cons_of_mem _ member)
    cases event with
    | emitted line =>
      have here := paintable line List.mem_cons_self
      have tail := ih rest others false (!line.text.isEmpty)
      rw [text_replay_cons, text_replay_cons, perform_emitted, perform_emitted,
        paintedLine_plain here]
      simp only [String.toList_append, List.append_assoc]
      rw [deleteStyles_append (escape_not_mem_lineFeed first), paintedLine,
        deleteStyles_paintRuns here.tiled (plain line List.mem_cons_self)]
      exact congrArg _ (congrArg _ tail)
    | finished =>
      have tail := ih rest others first false
      rw [text_replay_cons, text_replay_cons, String.toList_append, String.toList_append]
      have unstyled : escape ∉ (if openLine then "\n" else "").toList := by
        cases openLine <;> decide
      exact (deleteStyles_append unstyled _).trans (congrArg _ tail)

theorem stylesClosed_replay {events : List Event} (paintable : Paintable events)
    (plain : EscapeFree events) (first openLine : Bool) :
    StylesClosed (replay (⟨true, first, openLine⟩ : TerminalEmitter) events).2.toList := by
  induction events generalizing first openLine with
  | nil => exact stylesClosed_nil
  | cons event later ih =>
    have rest : Paintable later := fun line member => paintable line (List.mem_cons_of_mem _ member)
    have others : EscapeFree later := fun line member => plain line (List.mem_cons_of_mem _ member)
    cases event with
    | emitted line =>
      have here := paintable line List.mem_cons_self
      rw [text_replay_cons, perform_emitted]
      simp only [String.toList_append, List.append_assoc]
      apply stylesClosed_append _ (escape_not_mem_lineFeed first)
      apply stylesClosed_paintRuns here.tiled _ (plain line List.mem_cons_self) here.oneLine
      exact ih rest others false _
    | finished =>
      rw [text_replay_cons, String.toList_append]
      have unstyled : escape ∉ (if openLine then "\n" else "").toList := by
        cases openLine <;> decide
      exact stylesClosed_append (ih rest others first false) unstyled

theorem toList_ending (text : String) :
    (ending text true).toList = if text.toList = [] then [] else ['\n'] := by
  by_cases empty : text = ""
  · subst empty
    decide
  · have filled : text.toList ≠ [] := mt String.toList_eq_nil_iff.mp empty
    have isEmpty : text.isEmpty = false := by simpa using empty
    rw [if_neg filled, ending, isEmpty]
    rfl

/-- One document that is finished: its lines with a line feed between any two, and one behind the
last line if that has text. -/
theorem plainText_document (lines : List DocumentLine) (nonempty : lines ≠ [])
    (oneLine : ∀ line ∈ lines, IsOneLine line.text.toList) :
    (plainText (emittedTexts (lines.map .emitted ++ [.finished]))).toList =
      closedByLineFeed (['\n'].intercalate (lines.map fun line => line.text.toList)) := by
  induction lines with
  | nil => exact absurd rfl nonempty
  | cons line later ih =>
    obtain ⟨first, others⟩ := List.forall_mem_cons.mp oneLine
    cases later with
    | nil =>
      have whole : ['\n'].intercalate [line.text.toList] = line.text.toList := by simp
      rw [List.map_singleton, List.map_singleton, whole, closedByLineFeed_of_isOneLine first,
        ← toList_ending, ← String.toList_append]
      rfl
    | cons second behind =>
      have tail := ih (List.cons_ne_nil _ _) others
      have joined : ['\n'].intercalate ((line :: second :: behind).map (·.text.toList)) =
          line.text.toList ++ '\n' ::
            ['\n'].intercalate ((second :: behind).map (·.text.toList)) := by
        rw [List.map_cons, List.map_cons, List.intercalate_cons_cons, List.append_assoc]
        rfl
      have printed : plainText (emittedTexts ((line :: second :: behind).map .emitted ++
            [.finished])) =
          line.text ++ "" ++ "\n" ++
            plainText (emittedTexts ((second :: behind).map .emitted ++ [.finished])) := rfl
      rw [joined, closedByLineFeed_behind, ← tail, printed]
      simp only [String.toList_append, List.append_assoc]
      rfl

theorem intercalate_tokenizeDocument (tokenizer : QueryTokenizer) (text : String) :
    ['\n'].intercalate
        ((tokenizeDocument tokenizer text).map fun line => line.text.toList) =
      withLineFeeds text.toList := by
  have texts := congrArg (List.map String.toList) (map_text_tokenizeDocument tokenizer text)
  have chars_eq : String.toList ∘ String.ofList = id := funext fun _ => String.toList_ofList
  rw [List.map_map, List.map_map, chars_eq, List.map_id] at texts
  rw [← intercalate_lines_ofText, ← texts]
  rfl

theorem paintable_of_known {calls : List Call}
    (known : ∀ line ∈ emittedLines calls, line.IsOfDocument) : Paintable (eventsOf calls) :=
  fun _ member => (known _ (mem_emittedLines.mpr member)).isPaintable

/-- A document that is printed as a whole. -/
theorem written_document (tokenizer : QueryTokenizer) (text : String) :
    written ({ colors := false } : TerminalEmitter)
        [.emitAll (tokenizeDocument tokenizer text), .finish] =
      String.ofList (closedByLineFeed (withLineFeeds text.toList)) := by
  let lines := tokenizeDocument tokenizer text
  have events_eq : eventsOf [.emitAll lines, .finish] = lines.map .emitted ++ [.finished] := rfl
  have known : ∀ line ∈ lines, line.IsPaintable := fun line member =>
    DocumentLine.IsOfDocument.isPaintable ⟨tokenizer, text, member⟩
  have paintable : Paintable (lines.map .emitted ++ [.finished]) := by
    intro line member
    have listed : Event.emitted line ∈ lines.map Event.emitted := by simpa using member
    obtain ⟨other, present, same⟩ := List.mem_map.mp listed
    exact Event.emitted.inj same ▸ known other present
  have printed := plainText_document lines (List.cons_ne_nil _ _)
    (fun line member => (known line member).oneLine)
  rw [intercalate_tokenizeDocument] at printed
  rw [written_eq_replay, events_eq, replay_plain paintable, ← printed, String.ofList_toList]

/-- Whatever the calls are, the lines of documents are painted run by run without a cut inside a
character. Without colours their texts come out, one below the other, and one document comes out as
it is up to its line ends. Colours add style sequences only, none of which reaches over the end of
its line, if the texts have no escapes of their own. -/
theorem terminal_keeps_text (calls : List Call)
    (known : ∀ line ∈ emittedLines calls, line.IsOfDocument) :
    (∀ line ∈ emittedLines calls,
      let runs := Highlight.coalesce (line.tokens.map Token.highlight)
      (∀ run ∈ runs, run.IsCutOf line.text) ∧
        ∀ colors, paintRuns colors line.text.toList runs =
          runs.map fun run => painted colors run.kind (run.pieceOf line.text.toList)) ∧
      written ({ colors := false } : TerminalEmitter) calls =
        plainText (emittedTexts (eventsOf calls)) ∧
      (∀ (tokenizer : QueryTokenizer) (text : String),
        written ({ colors := false } : TerminalEmitter)
            [.emitAll (tokenizeDocument tokenizer text), .finish] =
          String.ofList (closedByLineFeed (withLineFeeds text.toList))) ∧
      ((∀ line ∈ emittedLines calls, escape ∉ line.text.toList) →
        let coloured := written ({ colors := true } : TerminalEmitter) calls
        deleteStyles coloured.toList =
            (written ({ colors := false } : TerminalEmitter) calls).toList ∧
          StylesClosed coloured.toList) := by
  have paintable := paintable_of_known known
  refine ⟨?_, ?_, written_document, ?_⟩
  · intro line member
    have tiled := (known line member).isPaintable.tiled
    exact ⟨tiled.isCutOf [] rfl, fun colors => tiled.paintRuns_eq colors [] rfl⟩
  · rw [written_eq_replay, replay_plain paintable]
  · intro plain
    have free : EscapeFree (eventsOf calls) := fun line member =>
      plain line (mem_emittedLines.mpr member)
    rw [written_eq_replay, written_eq_replay]
    exact ⟨deleteStyles_replay paintable free true false,
      stylesClosed_replay paintable free true false⟩

/-- A line that is emitted twice with the end of the report between: it is ended once as the last
line, and once more as the line before another. -/
theorem terminal_keeps_text_twice_finished :
    let line : DocumentLine := ⟨0, 0, [⟨.numeric, "7", ⟨0, 1⟩⟩], .start⟩
    let calls : List Call := [.emitLine line, .finish, .finish, .emitAll [line]]
    (∀ line ∈ emittedLines calls, line.IsOfDocument) ∧
      (∀ line ∈ emittedLines calls, escape ∉ line.text.toList) ∧
      written ({ colors := false } : TerminalEmitter) calls = "7\n\n7" ∧
      deleteStyles (written ({ colors := true } : TerminalEmitter) calls).toList =
        ['7', '\n', '\n', '7'] := by
  intro line calls
  let tokenizer : QueryTokenizer := ⟨false, ⟨.empty, .empty, .empty⟩⟩
  have present : line ∈ tokenizeDocument tokenizer "7" := by decide +kernel
  have known : ∀ line ∈ emittedLines calls, line.IsOfDocument := by
    intro other member
    have lines_eq : emittedLines calls = [line, line] := rfl
    rw [lines_eq, List.mem_cons, List.mem_singleton, or_self] at member
    exact ⟨tokenizer, "7", member ▸ present⟩
  have plain : ∀ line ∈ emittedLines calls, escape ∉ line.text.toList := by decide +kernel
  obtain ⟨-, printed, -, coloured⟩ := terminal_keeps_text calls known
  have text_eq : plainText (emittedTexts (eventsOf calls)) = "7\n\n7" := by decide +kernel
  refine ⟨known, plain, printed.trans text_eq, ?_⟩
  rw [(coloured plain).1, printed, text_eq]
  decide +kernel

end QueryHighlight
