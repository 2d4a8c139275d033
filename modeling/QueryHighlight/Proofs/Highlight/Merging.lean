import Mathlib.Data.List.Chain
import Mathlib.Data.List.Forall2
import QueryHighlight.Highlight

/-!
What joining spans does. It cuts a list into groups: within a group all spans have one kind and each
starts where the one before stops, and no group would go on with the next. That leaves no choice, so
joining twice is joining once, and the parts of a list may be joined first. In any list, even where
spans run backwards, each offset lies in as many spans of a kind after the joining as before.
-/

namespace QueryHighlight.Highlight

/-- The span does not run backwards. -/
def IsForward (highlight : Highlight) : Prop := highlight.span.start ≤ highlight.span.stop

instance (highlight : Highlight) : Decidable highlight.IsForward :=
  inferInstanceAs (Decidable (_ ≤ _))

/-- The group is a row of spans of one kind without gaps, and `whole` is that row in one piece. -/
structure JoinsTo (group : List Highlight) (whole : Highlight) : Prop where
  nonempty : group ≠ []
  kinds : ∀ part ∈ group, part.kind = whole.kind
  touching : group.IsChain fun first second => first.span.stop = second.span.start
  start_eq : group.head?.map (fun part => part.span.start) = some whole.span.start
  stop_eq : group.getLast?.map (fun part => part.span.stop) = some whole.span.stop

/-- The first list can be cut into groups, one for each span of the second list. -/
def GroupsInto (spans merged : List Highlight) : Prop :=
  ∃ groups : List (List Highlight), groups.flatten = spans ∧ List.Forall₂ JoinsTo groups merged

/-- Neither of two neighbours goes on with the other. -/
def Separate (spans : List Highlight) : Prop :=
  spans.IsChain fun first second =>
    ¬(first.kind = second.kind ∧ first.span.stop = second.span.start)

/-- The list is cut into groups that are as long as they can be. -/
structure IsMaximalMerging (spans merged : List Highlight) : Prop where
  grouped : GroupsInto spans merged
  separate : Separate merged

/-- How many spans of a kind an offset lies in. -/
def countAt (kind : Kind) (offset : Nat) (spans : List Highlight) : Nat :=
  spans.countP fun highlight => highlight.kind == kind && highlight.span.contains offset

variable {group later rest spans middle merged : List Highlight}
  {current first second next whole : Highlight}

theorem continuedBy_iff :
    first.continuedBy second = true ↔
      first.kind = second.kind ∧ first.span.stop = second.span.start := by
  rw [continuedBy, Bool.and_eq_true, beq_iff_eq, beq_iff_eq]

theorem joinsTo_self (part : Highlight) : JoinsTo [part] part := by
  constructor <;> simp

theorem joinsTo_singleton : JoinsTo [first] whole ↔ first = whole := by
  constructor
  · intro joins
    have kind := joins.kinds first List.mem_cons_self
    have start : first.span.start = whole.span.start := Option.some.inj joins.start_eq
    have stop : first.span.stop = whole.span.stop := Option.some.inj joins.stop_eq
    calc
      first = ⟨first.kind, ⟨first.span.start, first.span.stop⟩⟩ := rfl
      _ = whole := by rw [kind, start, stop]
  · rintro rfl
    exact joinsTo_self first

/-- A group is its first span, and behind it a group that starts where the first span stops. -/
theorem joinsTo_cons_cons :
    JoinsTo (first :: second :: rest) whole ↔
      (first.kind = whole.kind ∧ first.span.start = whole.span.start ∧
        first.span.stop = second.span.start) ∧
      JoinsTo (second :: rest) ⟨whole.kind, ⟨second.span.start, whole.span.stop⟩⟩ := by
  constructor
  · intro joins
    obtain ⟨firstKind, laterKinds⟩ := List.forall_mem_cons.mp joins.kinds
    obtain ⟨touches, laterTouching⟩ := List.isChain_cons_cons.mp joins.touching
    have start : first.span.start = whole.span.start := Option.some.inj joins.start_eq
    refine ⟨⟨firstKind, start, touches⟩, by simp, laterKinds, laterTouching, by simp, ?_⟩
    simpa only [List.getLast?_cons_cons] using joins.stop_eq
  · rintro ⟨⟨firstKind, start, touches⟩, behind⟩
    refine ⟨by simp, ?_, ?_, ?_, ?_⟩
    · exact List.forall_mem_cons.mpr ⟨firstKind, behind.kinds⟩
    · exact List.isChain_cons_cons.mpr ⟨touches, behind.touching⟩
    · simpa using start
    · simpa only [List.getLast?_cons_cons] using behind.stop_eq

/-- Of the first span of a group only the start shows in the whole. -/
theorem JoinsTo.with_start (joins : JoinsTo (first :: rest) whole) (start : Nat) :
    JoinsTo (⟨first.kind, ⟨start, first.span.stop⟩⟩ :: rest)
      ⟨whole.kind, ⟨start, whole.span.stop⟩⟩ := by
  cases rest with
  | nil =>
    rw [joinsTo_singleton] at joins ⊢
    rw [joins]
  | cons second others =>
    rw [joinsTo_cons_cons] at joins ⊢
    obtain ⟨⟨kind, -, touches⟩, behind⟩ := joins
    exact ⟨⟨kind, rfl, touches⟩, behind⟩

/-- Two groups of which the second goes on with the first are one group. -/
theorem JoinsTo.append (joins : JoinsTo group first) (joinsLater : JoinsTo later second)
    (kind : first.kind = second.kind) (touches : first.span.stop = second.span.start) :
    JoinsTo (group ++ later) ⟨first.kind, ⟨first.span.start, second.span.stop⟩⟩ := by
  refine ⟨by simp [joins.nonempty], ?_, ?_, ?_, ?_⟩
  · intro part member
    rcases List.mem_append.mp member with inside | behind
    · exact joins.kinds part inside
    · exact (joinsLater.kinds part behind).trans kind.symm
  · apply List.IsChain.append joins.touching joinsLater.touching
    intro last isLast head isHead
    have stop := joins.stop_eq
    have start := joinsLater.start_eq
    rw [Option.mem_def.mp isLast, Option.map_some, Option.some.injEq] at stop
    rw [Option.mem_def.mp isHead, Option.map_some, Option.some.injEq] at start
    rw [stop, start, touches]
  · rw [List.head?_append_of_ne_nil _ joins.nonempty]
    exact joins.start_eq
  · rw [List.getLast?_append_of_ne_nil _ joinsLater.nonempty]
    exact joinsLater.stop_eq

/-- A group of groups is a group. -/
theorem JoinsTo.flatten {groups : List (List Highlight)} (inner : List.Forall₂ JoinsTo groups group)
    (outer : JoinsTo group whole) : JoinsTo groups.flatten whole := by
  induction inner generalizing whole with
  | nil => exact absurd rfl outer.nonempty
  | @cons parts part groups group joins inner ih =>
    rw [List.flatten_cons]
    cases inner with
    | nil =>
      rw [joinsTo_singleton] at outer
      rwa [List.flatten_nil, List.append_nil, ← outer]
    | cons joinsSecond innerLater =>
      obtain ⟨⟨kind, start, touches⟩, behind⟩ := joinsTo_cons_cons.mp outer
      have together := joins.append (ih behind) kind touches
      rwa [kind, start] at together

theorem JoinsTo.isForward (joins : JoinsTo group whole) (forward : ∀ part ∈ group, part.IsForward) :
    whole.IsForward := by
  induction group generalizing whole with
  | nil => exact absurd rfl joins.nonempty
  | cons first later ih =>
    obtain ⟨here, there⟩ := List.forall_mem_cons.mp forward
    cases later with
    | nil => exact joinsTo_singleton.mp joins ▸ here
    | cons second others =>
      obtain ⟨⟨-, start, touches⟩, behind⟩ := joinsTo_cons_cons.mp joins
      have forwardLater := ih behind there
      simp only [IsForward] at here forwardLater ⊢
      omega

theorem groupsInto_self (spans : List Highlight) : GroupsInto spans spans := by
  refine ⟨spans.map fun span => [span], ?_, ?_⟩
  · rw [← List.flatMap_def, List.flatMap_singleton']
  · apply List.forall₂_map_left_iff.mpr
    exact List.forall₂_same.mpr fun span _ => joinsTo_self span

theorem GroupsInto.append {others mergedOthers : List Highlight} (first : GroupsInto spans merged)
    (second : GroupsInto others mergedOthers) :
    GroupsInto (spans ++ others) (merged ++ mergedOthers) := by
  obtain ⟨groups, rfl, joins⟩ := first
  obtain ⟨otherGroups, rfl, joinsOthers⟩ := second
  exact ⟨groups ++ otherGroups, List.flatten_append, List.rel_append joins joinsOthers⟩

theorem GroupsInto.trans (first : GroupsInto spans middle) (second : GroupsInto middle merged) :
    GroupsInto spans merged := by
  obtain ⟨outer, middle_eq, joinsOuter⟩ := second
  induction joinsOuter generalizing spans middle with
  | nil => rwa [← middle_eq] at first
  | @cons group whole outer merged joins _ ih =>
    obtain ⟨inner, rfl, joinsInner⟩ := first
    rw [← middle_eq, List.flatten_cons] at joinsInner
    have here := List.forall₂_take_append inner group outer.flatten joinsInner
    have there := List.forall₂_drop_append inner group outer.flatten joinsInner
    obtain ⟨groups, flat, joinsLater⟩ := ih ⟨_, rfl, there⟩ rfl
    refine ⟨(inner.take group.length).flatten :: groups, ?_, .cons (joins.flatten here) joinsLater⟩
    rw [List.flatten_cons, flat, ← List.flatten_append, List.take_append_drop]

theorem GroupsInto.isForward (grouped : GroupsInto spans merged)
    (forward : ∀ span ∈ spans, span.IsForward) : ∀ span ∈ merged, span.IsForward := by
  obtain ⟨groups, rfl, joins⟩ := grouped
  induction joins with
  | nil => exact forward
  | cons joins _ ih =>
    rw [List.flatten_cons] at forward
    obtain ⟨here, there⟩ := List.forall_mem_append.mp forward
    exact List.forall_mem_cons.mpr ⟨joins.isForward here, ih there⟩

/-- Spans that run forward grow at their ends only. -/
theorem merge_eq (forward : current.IsForward) (nextForward : next.IsForward)
    (continues : current.continuedBy next = true) :
    current.span.merge next.span = ⟨current.span.start, next.span.stop⟩ := by
  obtain ⟨-, touches⟩ := continuedBy_iff.mp continues
  simp only [IsForward] at forward nextForward
  rw [Span.merge, Nat.min_eq_left (by omega), Nat.max_eq_right (by omega)]

/-- The growing run begins like the first run that comes out of it. -/
theorem exists_runsFrom_eq_cons (forward : current.IsForward)
    (restForward : ∀ span ∈ rest, span.IsForward) :
    ∃ run runs, runsFrom current rest = run :: runs ∧ run.kind = current.kind ∧
      run.span.start = current.span.start := by
  induction rest generalizing current with
  | nil => exact ⟨current, [], rfl, rfl, rfl⟩
  | cons next rest ih =>
    obtain ⟨nextForward, restForward⟩ := List.forall_mem_cons.mp restForward
    rw [runsFrom]
    split
    next continues =>
      have joined := (joinsTo_self current).append (joinsTo_self next)
        (continuedBy_iff.mp continues).1 (continuedBy_iff.mp continues).2
      rw [merge_eq forward nextForward continues]
      exact ih (joined.isForward (by simp [forward, nextForward])) restForward
    next => exact ⟨current, _, rfl, rfl, rfl⟩

theorem isMaximalMerging_runsFrom (joins : JoinsTo group current)
    (forward : ∀ part ∈ group, part.IsForward) (restForward : ∀ span ∈ rest, span.IsForward) :
    IsMaximalMerging (group ++ rest) (runsFrom current rest) := by
  induction rest generalizing group current with
  | nil =>
    refine ⟨⟨[group], ?_, .cons joins .nil⟩, List.isChain_singleton _⟩
    rw [List.flatten_singleton, List.append_nil]
  | cons next rest ih =>
    obtain ⟨nextForward, restForward⟩ := List.forall_mem_cons.mp restForward
    rw [runsFrom]
    split
    next continues =>
      -- The next span goes into the group that is still open.
      obtain ⟨kind, touches⟩ := continuedBy_iff.mp continues
      have grown := joins.append (joinsTo_self next) kind touches
      have grownForward : ∀ part ∈ group ++ [next], part.IsForward := by
        exact List.forall_mem_append.mpr ⟨forward, List.forall_mem_singleton.mpr nextForward⟩
      rw [merge_eq (joins.isForward forward) nextForward continues, List.append_cons]
      exact ih grown grownForward restForward
    next parts =>
      -- The group is complete, and the next span opens another.
      have behind := ih (joinsTo_self next) (List.forall_mem_singleton.mpr nextForward) restForward
      obtain ⟨groups, flat, joinsLater⟩ := behind.grouped
      refine ⟨⟨group :: groups, by rw [List.flatten_cons, flat]; rfl, .cons joins joinsLater⟩, ?_⟩
      obtain ⟨run, runs, runs_eq, kind, start⟩ := exists_runsFrom_eq_cons nextForward restForward
      have separate := behind.separate
      rw [runs_eq] at separate ⊢
      apply List.isChain_cons_cons.mpr
      refine ⟨?_, separate⟩
      rwa [kind, start, ← continuedBy_iff]

theorem isMaximalMerging_coalesce (forward : ∀ span ∈ spans, span.IsForward) :
    IsMaximalMerging spans (coalesce spans) := by
  cases spans with
  | nil => exact ⟨⟨[], rfl, .nil⟩, .nil⟩
  | cons first rest =>
    obtain ⟨here, there⟩ := List.forall_mem_cons.mp forward
    exact isMaximalMerging_runsFrom (joinsTo_self first) (List.forall_mem_singleton.mpr here) there

/-- A group in front of a list is joined before anything else is looked at. -/
theorem runsFrom_of_joinsTo (joins : JoinsTo (first :: later) whole)
    (forward : ∀ part ∈ first :: later, part.IsForward) (rest : List Highlight) :
    runsFrom first (later ++ rest) = runsFrom whole rest := by
  induction later generalizing first with
  | nil => rw [joinsTo_singleton.mp joins, List.nil_append]
  | cons second others ih =>
    obtain ⟨here, there⟩ := List.forall_mem_cons.mp forward
    obtain ⟨secondForward, othersForward⟩ := List.forall_mem_cons.mp there
    obtain ⟨⟨kind, start, touches⟩, behind⟩ := joinsTo_cons_cons.mp joins
    have sameKind : first.kind = second.kind :=
      kind.trans (behind.kinds second List.mem_cons_self).symm
    have continues : first.continuedBy second = true := continuedBy_iff.mpr ⟨sameKind, touches⟩
    have joined := behind.with_start first.span.start
    have joinedForward : first.span.start ≤ second.span.stop := by
      simp only [IsForward] at here secondForward
      omega
    rw [List.cons_append, runsFrom, if_pos continues, merge_eq here secondForward continues,
      sameKind]
    rw [start] at joined joinedForward ⊢
    exact ih joined (List.forall_mem_cons.mpr ⟨joinedForward, othersForward⟩)

theorem runsFrom_of_separate (separate : ∀ next ∈ rest.head?, whole.continuedBy next = false) :
    runsFrom whole rest = whole :: coalesce rest := by
  cases rest with
  | nil => rfl
  | cons next rest =>
    rw [runsFrom, separate next rfl]
    rfl

/-- There is one maximal merging only. -/
theorem IsMaximalMerging.eq_coalesce (maximal : IsMaximalMerging spans merged)
    (forward : ∀ span ∈ spans, span.IsForward) : merged = coalesce spans := by
  obtain ⟨⟨groups, rfl, joins⟩, separate⟩ := maximal
  induction joins with
  | nil => rfl
  | @cons group whole groups merged joins joinsLater ih =>
    rw [List.flatten_cons] at forward ⊢
    obtain ⟨here, there⟩ := List.forall_mem_append.mp forward
    obtain ⟨first, parts, rfl⟩ := List.exists_cons_of_ne_nil joins.nonempty
    have apart : ∀ next ∈ groups.flatten.head?, whole.continuedBy next = false := by
      intro next isHead
      cases joinsLater with
      | nil => cases isHead
      | @cons following second _ _ joinsSecond =>
        rw [List.flatten_cons, List.head?_append_of_ne_nil _ joinsSecond.nonempty] at isHead
        have kind := joinsSecond.kinds next (List.mem_of_mem_head? isHead)
        have start := joinsSecond.start_eq
        rw [Option.mem_def.mp isHead, Option.map_some, Option.some.injEq] at start
        have differs := (List.isChain_cons_cons.mp separate).1
        rwa [← kind, ← start, ← continuedBy_iff, Bool.not_eq_true] at differs
    calc
      whole :: merged = whole :: coalesce groups.flatten := by rw [ih separate.tail there]
      _ = runsFrom whole groups.flatten := (runsFrom_of_separate apart).symm
      _ = coalesce (first :: parts ++ groups.flatten) := (runsFrom_of_joinsTo joins here _).symm

theorem coalesce_coalesce (forward : ∀ span ∈ spans, span.IsForward) :
    coalesce (coalesce spans) = coalesce spans := by
  have maximal := isMaximalMerging_coalesce forward
  have again : IsMaximalMerging (coalesce spans) (coalesce spans) :=
    ⟨groupsInto_self _, maximal.separate⟩
  exact (again.eq_coalesce (maximal.grouped.isForward forward)).symm

theorem coalesce_append {others : List Highlight} (forward : ∀ span ∈ spans, span.IsForward)
    (othersForward : ∀ span ∈ others, span.IsForward) :
    coalesce (spans ++ others) = coalesce (coalesce spans ++ coalesce others) := by
  have first := (isMaximalMerging_coalesce forward).grouped
  have second := (isMaximalMerging_coalesce othersForward).grouped
  have parts := first.append second
  have allForward : ∀ span ∈ spans ++ others, span.IsForward :=
    List.forall_mem_append.mpr ⟨forward, othersForward⟩
  have joined := isMaximalMerging_coalesce (parts.isForward allForward)
  have maximal : IsMaximalMerging (spans ++ others) (coalesce (coalesce spans ++ coalesce others)) :=
    ⟨parts.trans joined.grouped, joined.separate⟩
  exact (maximal.eq_coalesce allForward).symm

theorem contains_iff {span : Span} {offset : Nat} :
    span.contains offset = true ↔ span.start ≤ offset ∧ offset < span.stop := by
  rw [Span.contains, Bool.and_eq_true, decide_eq_true_eq, decide_eq_true_eq]

/-- Of two spans that touch at most one contains an offset, and then their merging does, whichever
way they run. -/
theorem toNat_contains_merge {first second : Span} (touches : first.stop = second.start)
    (offset : Nat) :
    ((first.merge second).contains offset).toNat =
      (first.contains offset).toNat + (second.contains offset).toNat := by
  have merged : (first.merge second).contains offset = true ↔
      first.contains offset = true ∨ second.contains offset = true := by
    simp only [contains_iff, Span.merge]
    omega
  have disjoint : ¬(first.contains offset = true ∧ second.contains offset = true) := by
    simp only [contains_iff]
    omega
  cases inFirst : first.contains offset <;> cases inSecond : second.contains offset <;>
    simp_all

theorem countAt_cons (kind : Kind) (offset : Nat) (first : Highlight) (rest : List Highlight) :
    countAt kind offset (first :: rest) =
      countAt kind offset rest + (first.kind == kind && first.span.contains offset).toNat := by
  rw [countAt, List.countP_cons]
  cases first.kind == kind && first.span.contains offset <;> rfl

theorem countAt_runsFrom (kind : Kind) (offset : Nat) (current : Highlight)
    (rest : List Highlight) :
    countAt kind offset (runsFrom current rest) = countAt kind offset (current :: rest) := by
  induction rest generalizing current with
  | nil => rfl
  | cons next rest ih =>
    rw [runsFrom]
    split
    next continues =>
      obtain ⟨sameKind, touches⟩ := continuedBy_iff.mp continues
      have count := toNat_contains_merge touches offset
      rw [ih, countAt_cons, countAt_cons, countAt_cons, ← sameKind]
      cases current.kind == kind with
      | false => rfl
      | true =>
        simp only [Bool.true_and]
        omega
    next => rw [countAt_cons, ih, ← countAt_cons]

theorem countAt_coalesce (kind : Kind) (offset : Nat) (spans : List Highlight) :
    countAt kind offset (coalesce spans) = countAt kind offset spans := by
  cases spans with
  | nil => rfl
  | cons first rest => exact countAt_runsFrom kind offset first rest

/-- Joining is the one maximal merging of spans that run forward: it is one, and every other is the
same. So it is idempotent, and lists can be joined part by part. Of any spans at all, it keeps how
many of a kind an offset lies in. -/
theorem coalesce_unique_maximal :
    (∀ spans : List Highlight, (∀ span ∈ spans, span.IsForward) →
      IsMaximalMerging spans (coalesce spans) ∧
      (∀ merged, IsMaximalMerging spans merged → merged = coalesce spans) ∧
      coalesce (coalesce spans) = coalesce spans) ∧
    (∀ spans others : List Highlight,
      (∀ span ∈ spans, span.IsForward) → (∀ span ∈ others, span.IsForward) →
      coalesce (spans ++ others) = coalesce (coalesce spans ++ coalesce others)) ∧
    ∀ (kind : Kind) (offset : Nat) (spans : List Highlight),
      countAt kind offset (coalesce spans) = countAt kind offset spans := by
  refine ⟨?_, ?_, countAt_coalesce⟩
  · intro spans forward
    refine ⟨isMaximalMerging_coalesce forward, ?_, coalesce_coalesce forward⟩
    intro merged maximal
    exact maximal.eq_coalesce forward
  · intro spans others forward othersForward
    exact coalesce_append forward othersForward

/-- Touching spans with an empty one between them, a gap, and an overlap of another kind. -/
theorem coalesce_unique_maximal_overlapping :
    let spans : List Highlight :=
      [⟨.string, ⟨0, 2⟩⟩, ⟨.string, ⟨2, 2⟩⟩, ⟨.string, ⟨2, 5⟩⟩, ⟨.string, ⟨6, 7⟩⟩, ⟨.keyword, ⟨4, 9⟩⟩]
    let merged : List Highlight :=
      [⟨.string, ⟨0, 5⟩⟩, ⟨.string, ⟨6, 7⟩⟩, ⟨.keyword, ⟨4, 9⟩⟩]
    (∀ span ∈ spans, span.IsForward) ∧ IsMaximalMerging spans merged ∧
      coalesce merged = merged ∧ coalesce (spans ++ spans) = coalesce (merged ++ merged) ∧
      countAt .string 4 merged = countAt .string 4 spans := by
  intro spans merged
  have forward : ∀ span ∈ spans, span.IsForward := by decide
  have merged_eq : coalesce spans = merged := by decide
  obtain ⟨unique, parts, count⟩ := coalesce_unique_maximal
  obtain ⟨maximal, -, again⟩ := unique spans forward
  have joined := parts spans spans forward forward
  have counted := count .string 4 spans
  rw [merged_eq] at maximal again joined counted
  exact ⟨forward, maximal, again, joined, counted⟩

/-- A span that runs backwards can bring a run back to where the run before it stops, so that the
two are joined the next time only. -/
example :
    let spans : List Highlight :=
      [⟨.string, ⟨0, 2⟩⟩, ⟨.string, ⟨5, 2⟩⟩, ⟨.string, ⟨2, 1⟩⟩]
    coalesce spans = [⟨.string, ⟨0, 2⟩⟩, ⟨.string, ⟨2, 2⟩⟩] ∧
      coalesce (coalesce spans) = [⟨.string, ⟨0, 2⟩⟩] := by
  decide

end QueryHighlight.Highlight
