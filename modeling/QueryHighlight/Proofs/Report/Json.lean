import Mathlib.Data.List.Forall2
import QueryHighlight.Report.Json
import QueryHighlight.Proofs.Json.RoundTrip
import QueryHighlight.Proofs.Report.Calls

/-!
The JSON report is read back. Whatever calls are made, the report is one document for each time it
is finished, and a document has the lines since the time before: every line once, in the order in
which they were emitted, with everything that the tokens say. States and kinds are named there, and
the names are told apart by the tables of a reader, not by the writer's own functions.
-/

namespace QueryHighlight
open Scan

/-- The lines from one end of the report to the next, for each end. What is emitted behind the last
end belongs to no report. -/
def batches : List Event → List (List DocumentLine)
  | [] => []
  | .finished :: later => [] :: batches later
  | .emitted line :: later => (batches later).modifyHead (line :: ·)

theorem length_batches (events : List Event) :
    (batches events).length = events.count .finished := by
  induction events with
  | nil => rfl
  | cons event later ih =>
    cases event with
    | emitted line =>
      have other : Event.emitted line ≠ .finished := nofun
      rw [batches, List.length_modifyHead, ih, List.count_cons_of_ne other]
    | finished => rw [batches, List.length_cons, ih, List.count_cons_self]

/-- Lines that are emitted end no report. -/
theorem count_finished_events (call : Call) :
    call.events.count .finished = if call == .finish then 1 else 0 := by
  cases call with
  | emitLine line => rfl
  | emitAll lines =>
    refine List.count_eq_zero.mpr fun member => ?_
    obtain ⟨_, _, same⟩ := List.mem_map.mp member
    cases same
  | finish => rfl

theorem count_finished_eventsOf (calls : List Call) :
    (eventsOf calls).count .finished = calls.count .finish := by
  induction calls with
  | nil => rfl
  | cons call later ih =>
    rw [eventsOf, List.flatMap_cons, List.count_append, ← eventsOf, ih, count_finished_events,
      List.count_cons, Nat.add_comm]

namespace Json

/-- The names of the states in a report, as a host knows them that reads one. -/
def stateNames : List (String × State) :=
  [("start", .start), ("double_quoted_string", .string .double),
    ("single_quoted_string", .string .single)]

/-- The scope names of the kinds in a report. -/
def scopeNames : List (String × Kind) :=
  [("comment", .comment), ("string", .string), ("string.escape", .stringEscape),
    ("constant.numeric", .numeric), ("constant.language", .constant), ("keyword", .keyword),
    ("support.function", .function), ("identifier", .identifier), ("paren.open", .bracketOpen),
    ("paren.close", .bracketClose), ("whitespace", .whitespace), ("error", .error)]

/-- The name that is written for a state is its own and stands for no other. -/
theorem lookup_stateName (state : State) : stateNames.lookup (stateName state) = some state := by
  rcases state with _ | _ | _ <;> decide

theorem lookup_scope (kind : Kind) : scopeNames.lookup kind.scope = some kind := by
  cases kind <;> decide

/-- The data is a name that stands for the given value. -/
def Names {α : Type} (names : List (String × α)) (value : α) (data : Data) : Prop :=
  ∃ name, data = .string name ∧ names.lookup name = some value

/-- The data says what the token is and where it stands. -/
structure DescribesToken (token : Token) (data : Data) : Prop where
  kind : ∃ scope, data.field? "kind" = some scope ∧ Names scopeNames token.kind scope
  text : data.field? "text" = some (.string token.text)
  span : ∃ span, data.field? "span" = some span ∧
    span.field? "start" = some (.number token.span.start 0) ∧
    span.field? "end" = some (.number token.span.stop 0)

/-- The data says which line it is and what is on it. -/
structure DescribesLine (line : DocumentLine) (data : Data) : Prop where
  number : data.field? "line" = some (.number (line.number + 1) 0)
  start : data.field? "start" = some (.number line.start 0)
  endState : ∃ state, data.field? "end_state" = some state ∧
    Names stateNames line.endState state
  tokens : ∃ items, data.field? "tokens" = some (.list items) ∧
    List.Forall₂ DescribesToken line.tokens items

theorem describesToken_ofToken (token : Token) : DescribesToken token (.ofValue (ofToken token)) where
  kind := ⟨.string token.kind.scope, rfl, token.kind.scope, rfl, lookup_scope token.kind⟩
  text := rfl
  span := ⟨.ofValue (ofSpan token.span), rfl, rfl, rfl⟩

theorem describesLine_ofLine (line : DocumentLine) :
    DescribesLine line (.ofValue (ofLine line)) where
  number := rfl
  start := rfl
  endState :=
    ⟨.string (stateName line.endState), rfl, stateName line.endState, rfl,
      lookup_stateName line.endState⟩
  tokens := by
    refine ⟨Data.ofItems (line.tokens.map ofToken), rfl, ?_⟩
    rw [Data.ofItems_eq_map, List.map_map, List.forall₂_map_right_iff]
    exact List.forall₂_same.mpr fun token _ => describesToken_ofToken token

/-- The document that a report on some lines is. -/
def document (lines : List DocumentLine) : String := (Value.list (lines.map ofLine)).text

theorem read_document (lines : List DocumentLine) :
    ∃ items, read (document lines) = some (.list items) ∧
      List.Forall₂ DescribesLine lines items := by
  refine ⟨(lines.map ofLine).map Data.ofValue, ?_, ?_⟩
  · rw [document, read_text, Data.ofValue, Data.ofItems_eq_map]
  · rw [List.map_map, List.forall₂_map_right_iff]
    exact List.forall₂_same.mpr fun line _ => describesLine_ofLine line

end Json

theorem modifyHead_none_waiting (groups : List (List DocumentLine)) :
    groups.modifyHead ((#[] : Array DocumentLine).toList ++ ·) = groups :=
  congrFun List.modifyHead_id groups

/-- The lines that wait are the first of the next report, and the induction is on what happens
before it. -/
theorem replay_json (waiting : Array DocumentLine) (events : List Event) :
    (replay (⟨waiting⟩ : JsonEmitter) events).2 =
      String.join (((batches events).modifyHead (waiting.toList ++ ·)).map
        fun lines => Json.document lines ++ "\n") := by
  induction events generalizing waiting with
  | nil => rfl
  | cons event later ih =>
    cases event with
    | emitted line =>
      have pushed : (fun lines => (waiting.push line).toList ++ lines) =
          (waiting.toList ++ ·) ∘ (line :: ·) := by
        funext lines
        rw [Array.toList_push, List.append_assoc]
        rfl
      calc (replay (⟨waiting⟩ : JsonEmitter) (.emitted line :: later)).2
          = (replay (⟨waiting.push line⟩ : JsonEmitter) later).2 := String.empty_append
        _ = _ := by rw [ih, pushed, batches, List.modifyHead_modifyHead]
    | finished =>
      calc (replay (⟨waiting⟩ : JsonEmitter) (.finished :: later)).2
          = Json.document waiting.toList ++ "\n" ++ (replay (⟨#[]⟩ : JsonEmitter) later).2 := rfl
        _ = _ := by
          rw [ih, modifyHead_none_waiting, batches, List.modifyHead_cons, List.append_nil,
            List.map_cons, String.join_cons]

/-- Whatever the calls are, what is written is a document and a line feed for each time the report
is finished, and each document is read back as a list that describes the lines emitted since the
time before, one by one. -/
theorem json_reads_back (calls : List Call) :
    ∃ documents : List String,
      written ({} : JsonEmitter) calls = String.join (documents.map (· ++ "\n")) ∧
      documents.length = calls.count .finish ∧
      List.Forall₂
        (fun document lines => ∃ items, Json.read document = some (.list items) ∧
          List.Forall₂ Json.DescribesLine lines items)
        documents (batches (eventsOf calls)) := by
  refine ⟨(batches (eventsOf calls)).map Json.document, ?_, ?_, ?_⟩
  · rw [written_eq_replay, replay_json, modifyHead_none_waiting, List.map_map]
    rfl
  · rw [List.length_map, length_batches, count_finished_eventsOf]
  · rw [List.forall₂_map_left_iff]
    exact List.forall₂_same.mpr fun lines _ => Json.read_document lines

end QueryHighlight
