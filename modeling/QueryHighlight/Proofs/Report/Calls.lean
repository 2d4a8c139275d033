import QueryHighlight.Report.Emitter

/-!
Reports that are written in several calls. Lines may be emitted alone or many at a time, and a
report may be finished as often as one likes and continued behind that. How the lines are spread
over the calls makes no difference: what is written is decided by the lines in their order and by
where among them the report was finished.
-/

namespace QueryHighlight

/-- What an emitter may be asked for. -/
inductive Call where
  | emitLine (line : DocumentLine)
  | emitAll (lines : List DocumentLine)
  | finish
  deriving DecidableEq, Repr

/-- What an emitter gets to see of the calls. -/
inductive Event where
  | emitted (line : DocumentLine)
  | finished
  deriving DecidableEq, Repr

/-- The events of a call, in order. -/
def Call.events : Call → List Event
  | .emitLine line => [.emitted line]
  | .emitAll lines => lines.map .emitted
  | .finish => [.finished]

/-- The events of several calls, in order. -/
def eventsOf (calls : List Call) : List Event := calls.flatMap Call.events

/-- The line of an event, if there is one. -/
def Event.line? : Event → Option DocumentLine
  | .emitted line => some line
  | .finished => none

/-- All lines that the calls emit, in order. -/
def emittedLines (calls : List Call) : List DocumentLine := (eventsOf calls).filterMap Event.line?

section

variable {ε : Type} [Emitter ε]

def Call.perform (emitter : ε) : Call → ε × String
  | .emitLine line => Emitter.emitLine emitter line
  | .emitAll lines => QueryHighlight.emitAll emitter lines
  | .finish => Emitter.finish emitter

/-- Everything that an emitter writes in a sequence of calls. -/
def written (emitter : ε) : List Call → String
  | [] => ""
  | call :: later => (call.perform emitter).2 ++ written (call.perform emitter).1 later

def Event.perform (emitter : ε) : Event → ε × String
  | .emitted line => Emitter.emitLine emitter line
  | .finished => Emitter.finish emitter

/-- The emitter behind a sequence of events, and what it has written. -/
def replay (emitter : ε) : List Event → ε × String
  | [] => (emitter, "")
  | event :: later =>
    let (next, text) := event.perform emitter
    ((replay next later).1, text ++ (replay next later).2)

theorem text_replay_cons (emitter : ε) (event : Event) (later : List Event) :
    (replay emitter (event :: later)).2 =
      (event.perform emitter).2 ++ (replay (event.perform emitter).1 later).2 := rfl

theorem replay_append (emitter : ε) (first second : List Event) :
    replay emitter (first ++ second) =
      ((replay (replay emitter first).1 second).1,
        (replay emitter first).2 ++ (replay (replay emitter first).1 second).2) := by
  induction first generalizing emitter with
  | nil => simp [replay]
  | cons event later ih => simp [replay, ih, String.append_assoc]

/-- Lines that are emitted together are written as if they came alone, behind what is there. -/
theorem foldl_emitLine (emitter : ε) (before : String) (lines : List DocumentLine) :
    lines.foldl
        (fun (emitter, written) line =>
          let (emitter, text) := emitLine emitter line
          (emitter, written ++ text))
        (emitter, before) =
      ((replay emitter (lines.map .emitted)).1,
        before ++ (replay emitter (lines.map .emitted)).2) := by
  induction lines generalizing emitter before with
  | nil => simp [replay]
  | cons line later ih =>
    rw [List.foldl_cons, ih, List.map_cons, replay, Event.perform, String.append_assoc]

theorem perform_eq_replay (emitter : ε) (call : Call) :
    call.perform emitter = replay emitter call.events := by
  cases call with
  | emitLine line => simp [Call.perform, Call.events, replay, Event.perform]
  | emitAll lines =>
    rw [Call.perform, Call.events, emitAll, foldl_emitLine, String.empty_append]
  | finish => simp [Call.perform, Call.events, replay, Event.perform]

/-- What is written depends on the events alone. -/
theorem written_eq_replay (emitter : ε) (calls : List Call) :
    written emitter calls = (replay emitter (eventsOf calls)).2 := by
  induction calls generalizing emitter with
  | nil => rfl
  | cons call later ih =>
    rw [written, ih, perform_eq_replay, eventsOf, eventsOf, List.flatMap_cons, replay_append]

/-- A whole report is one document followed by its end. -/
theorem report_eq_written (emitter : ε) (lines : List DocumentLine) :
    report emitter lines = written emitter [.emitAll lines, .finish] := by
  rw [written, written, written, String.append_empty]
  rfl

end

/-- The calls for a whole report emit its lines. -/
theorem emittedLines_document (lines : List DocumentLine) :
    emittedLines [.emitAll lines, .finish] = lines := by
  have lines_eq : (lines.map Event.emitted).filterMap Event.line? = lines := by
    rw [List.filterMap_map]
    exact List.filterMap_some
  have events_eq : eventsOf [.emitAll lines, .finish] = lines.map .emitted ++ [.finished] := rfl
  rw [emittedLines, events_eq, List.filterMap_append, lines_eq]
  exact List.append_nil lines

theorem mem_emittedLines {calls : List Call} {line : DocumentLine} :
    line ∈ emittedLines calls ↔ Event.emitted line ∈ eventsOf calls := by
  rw [emittedLines, List.mem_filterMap]
  constructor
  · rintro ⟨event, member, found⟩
    cases event with
    | emitted other => exact Option.some.inj found ▸ member
    | finished => cases found
  · intro member
    exact ⟨_, member, rfl⟩

end QueryHighlight
