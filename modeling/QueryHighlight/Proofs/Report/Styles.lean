import QueryHighlight.Report.Terminal

/-!
Style sequences in a text for the terminal: an escape and a bracket, and whatever comes before the
next `m`. A painted piece has one sequence before it and the reset behind it, so without its
sequences it is the piece, and no style reaches beyond it.
-/

namespace QueryHighlight.Terminal

/-- The character that every sequence starts with. -/
def escape : Char := '\x1b'

theorem length_dropWhile_lt {rest behind : List Char} {c : Char}
    (found : rest.dropWhile (· ≠ 'm') = c :: behind) : behind.length < rest.length := by
  have shorter := (List.dropWhile_sublist (l := rest) (· ≠ 'm')).length_le
  rw [found, List.length_cons] at shorter
  exact shorter

/-- The text without its sequences. An opening that no `m` follows is no sequence and stays. -/
def deleteStyles : List Char → List Char
  | [] => []
  | '\x1b' :: '[' :: rest =>
    match _found : rest.dropWhile (· ≠ 'm') with
    | [] => '\x1b' :: '[' :: rest
    | _ :: behind => deleteStyles behind
  | c :: rest => c :: deleteStyles rest
termination_by text => text.length
decreasing_by
  · have shorter := length_dropWhile_lt ‹_›
    simp only [List.length_cons]
    omega
  · simp

/-- Every style sequence has a reset behind it, before the next line and before the next style. -/
def StylesClosed (text : List Char) : Prop :=
  ∀ (before after : List Char) (attributes : String),
    text = before ++ (styleSequence attributes).toList ++ after →
    'm' ∉ attributes.toList → attributes ≠ "0" →
      ∃ piece behind, after = piece ++ reset.toList ++ behind ∧ '\n' ∉ piece ∧ escape ∉ piece

variable {text rest : List Char} {attributes : String}

theorem toList_styleSequence (attributes : String) :
    (styleSequence attributes).toList = escape :: '[' :: (attributes.toList ++ ['m']) := by
  rw [styleSequence, String.toList_append, String.toList_append]
  rfl

theorem deleteStyles_cons {c : Char} (plain : c ≠ escape) (rest : List Char) :
    deleteStyles (c :: rest) = c :: deleteStyles rest := by
  rw [deleteStyles]
  rintro _ rfl
  exact absurd rfl plain

theorem deleteStyles_append (plain : escape ∉ text) (rest : List Char) :
    deleteStyles (text ++ rest) = text ++ deleteStyles rest := by
  induction text with
  | nil => rfl
  | cons c others ih =>
    rw [List.mem_cons, not_or] at plain
    obtain ⟨first, later⟩ := plain
    rw [List.cons_append, deleteStyles_cons (Ne.symm first), ih later, List.cons_append]

theorem deleteStyles_styleSequence (bare : 'm' ∉ attributes.toList) (rest : List Char) :
    deleteStyles ((styleSequence attributes).toList ++ rest) = deleteStyles rest := by
  have kept : ∀ c ∈ attributes.toList, decide (c ≠ 'm') = true := by
    intro c member
    exact decide_eq_true fun same => bare (same ▸ member)
  have ends : (attributes.toList ++ ['m'] ++ rest).dropWhile (· ≠ 'm') = 'm' :: rest := by
    rw [List.append_assoc, List.dropWhile_append_of_pos kept]
    rfl
  rw [toList_styleSequence, List.cons_append, List.cons_append, escape, deleteStyles]
  split
  next absent => rw [ends] at absent; cases absent
  next found => rw [ends] at found; rw [(List.cons.inj found).2]

/-- The attributes of a kind neither end their sequence nor start another. -/
theorem attributes?_wellFormed {kind : Kind} (found : attributes? kind = some attributes) :
    'm' ∉ attributes.toList ∧ escape ∉ attributes.toList := by
  cases kind <;> simp only [attributes?, reduceCtorEq, Option.some.injEq] at found <;>
    subst found <;> decide

theorem toList_painted_styled {kind : Kind} (found : attributes? kind = some attributes)
    (text : List Char) :
    (painted true kind text).toList =
      (styleSequence attributes).toList ++ text ++ reset.toList := by
  rw [painted, if_pos rfl, found, String.toList_append, String.toList_append, String.toList_ofList]

theorem toList_painted_plain {kind : Kind} (colors : Bool)
    (plain : colors = true → attributes? kind = none) (text : List Char) :
    (painted colors kind text).toList = text := by
  have absent : (if colors = true then attributes? kind else none) = none := by
    split
    next coloured => exact plain coloured
    next => rfl
  rw [painted, absent, String.toList_ofList]

/-- Without its sequences a painted piece is the piece. -/
theorem deleteStyles_painted (kind : Kind) (plain : escape ∉ text) (rest : List Char) :
    deleteStyles ((painted true kind text).toList ++ rest) = text ++ deleteStyles rest := by
  cases found : attributes? kind with
  | none => rw [toList_painted_plain true (fun _ => found), deleteStyles_append plain]
  | some attributes =>
    have bare := (attributes?_wellFormed found).1
    rw [toList_painted_styled found, List.append_assoc, List.append_assoc,
      deleteStyles_styleSequence bare, deleteStyles_append plain, reset,
      deleteStyles_styleSequence (by decide)]

theorem stylesClosed_nil : StylesClosed [] := by
  intro before after attributes split
  simp [toList_styleSequence] at split

/-- A character in front changes nothing but what may start there. -/
theorem stylesClosed_cons {c : Char} (closed : StylesClosed rest)
    (here : ∀ (after : List Char) (attributes : String),
      c :: rest = (styleSequence attributes).toList ++ after →
      'm' ∉ attributes.toList → attributes ≠ "0" →
        ∃ piece behind, after = piece ++ reset.toList ++ behind ∧ '\n' ∉ piece ∧ escape ∉ piece) :
    StylesClosed (c :: rest) := by
  intro before after attributes split
  cases before with
  | nil => exact here after attributes split
  | cons d others => exact closed others after attributes (List.cons.inj split).2

theorem stylesClosed_append (closed : StylesClosed rest) (plain : escape ∉ text) :
    StylesClosed (text ++ rest) := by
  induction text with
  | nil => exact closed
  | cons c others ih =>
    rw [List.mem_cons, not_or] at plain
    obtain ⟨first, later⟩ := plain
    refine stylesClosed_cons (ih later) ?_
    intro after attributes split
    rw [toList_styleSequence] at split
    exact absurd (List.cons.inj split).1.symm first

/-- The first occurrence of a character cuts a text in one way only. -/
theorem append_cons_inj {c : Char} {first second before after : List Char} (absent : c ∉ first)
    (otherAbsent : c ∉ second) (same : first ++ c :: before = second ++ c :: after) :
    first = second ∧ before = after := by
  induction first generalizing second with
  | nil =>
    cases second with
    | nil => exact ⟨rfl, (List.cons.inj same).2⟩
    | cons d others => exact absurd ((List.cons.inj same).1 ▸ List.mem_cons_self) otherAbsent
  | cons d others ih =>
    cases second with
    | nil => exact absurd ((List.cons.inj same).1 ▸ List.mem_cons_self) absent
    | cons e more =>
      obtain ⟨rfl, tails⟩ := List.cons.inj same
      obtain ⟨rfl, rfl⟩ := ih (mt (List.mem_cons_of_mem _) absent)
        (mt (List.mem_cons_of_mem _) otherAbsent) tails
      exact ⟨rfl, rfl⟩

/-- A sequence at the head of a text is one with its attributes, and what follows it is known. -/
theorem styleSequence_inj {other : String} {after : List Char}
    (same : (styleSequence attributes).toList ++ rest = (styleSequence other).toList ++ after)
    (bare : 'm' ∉ attributes.toList) (otherBare : 'm' ∉ other.toList) :
    attributes = other ∧ rest = after := by
  simp only [toList_styleSequence, List.cons_append, List.append_assoc, List.cons.injEq,
    true_and] at same
  obtain ⟨attributes_eq, rest_eq⟩ := append_cons_inj bare otherBare same
  exact ⟨String.toList_injective attributes_eq, rest_eq⟩

theorem stylesClosed_reset (closed : StylesClosed rest) : StylesClosed (reset.toList ++ rest) := by
  have behind : StylesClosed (['[', '0', 'm'] ++ rest) :=
    stylesClosed_append closed (by decide)
  refine stylesClosed_cons behind ?_
  intro after attributes split bare notReset
  exact absurd (styleSequence_inj split (by decide) bare).1.symm notReset

theorem stylesClosed_painted (kind : Kind) (closed : StylesClosed rest) (plain : escape ∉ text)
    (oneLine : '\n' ∉ text) : StylesClosed ((painted true kind text).toList ++ rest) := by
  cases found : attributes? kind with
  | none =>
    rw [toList_painted_plain true (fun _ => found)]
    exact stylesClosed_append closed plain
  | some attributes =>
    obtain ⟨bare, unescaped⟩ := attributes?_wellFormed found
    have ended : StylesClosed (text ++ (reset.toList ++ rest)) :=
      stylesClosed_append (stylesClosed_reset closed) plain
    have styled : escape ∉ '[' :: (attributes.toList ++ ['m']) := by
      rw [List.mem_cons, List.mem_append, List.mem_singleton, not_or, not_or]
      exact ⟨by decide, unescaped, by decide⟩
    have behind := stylesClosed_append ended styled
    rw [toList_painted_styled found, List.append_assoc, List.append_assoc]
    rw [toList_styleSequence]
    refine stylesClosed_cons behind ?_
    intro after other split otherBare _
    have same : (styleSequence attributes).toList ++ (text ++ (reset.toList ++ rest)) =
        (styleSequence other).toList ++ after := by
      rw [← split, toList_styleSequence]
      rfl
    obtain ⟨-, rfl⟩ := styleSequence_inj same bare otherBare
    exact ⟨text, rest, (List.append_assoc _ _ _).symm, oneLine, plain⟩

end QueryHighlight.Terminal
