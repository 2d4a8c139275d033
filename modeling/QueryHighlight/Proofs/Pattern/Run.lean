import QueryHighlight.Proofs.Pattern.Basic

/-!
Runs of a class. A backtracking engine takes the whole run and then gives characters back one by
one. Where giving back cannot help what follows, the engine does the same as a matcher that takes
the run and never looks back; all numbers, blanks and comments of the query language are of that
sort, for different reasons, and names are not.
-/

namespace QueryHighlight.Scan
open Text

def runLength (isMember : Char → Bool) (rest : List Char) : Nat :=
  (rest.takeWhile isMember).length

theorem runLength_cons_of_mem {isMember : Char → Bool} {c : Char} (rest : List Char)
    (member : isMember c = true) :
    runLength isMember (c :: rest) = 1 + runLength isMember rest := by
  rw [runLength, List.takeWhile_cons_of_pos member, List.length_cons, Nat.add_comm, runLength]

theorem runLength_eq_zero {isMember : Char → Bool} {rest : List Char} :
    runLength isMember rest = 0 ↔ rest.head?.any isMember = false := by
  cases rest with
  | nil => simp [runLength]
  | cons c rest => by_cases member : isMember c = true <;> simp [runLength, member]

theorem runLength_pos {isMember : Char → Bool} {rest : List Char} :
    0 < runLength isMember rest ↔ rest.head?.any isMember = true := by
  rw [Nat.pos_iff_ne_zero, Ne, runLength_eq_zero, Bool.not_eq_false]

/-- A step over a character of the class leaves one character less of the run. -/
theorem runLength_after_skip_one {isMember : Char → Bool} {place : Place}
    (member : place.after.head?.any isMember = true) :
    1 + runLength isMember (place.skip 1).after = runLength isMember place.after := by
  rw [Place.after_skip]
  cases same : place.after with
  | nil => rw [same] at member; cases member
  | cons c rest =>
    rw [same] at member
    exact (runLength_cons_of_mem rest member).symm

theorem head_before_skip_one {isMember : Char → Bool} {place : Place}
    (member : place.after.head?.any isMember = true) :
    (place.skip 1).before.head?.any isMember = true := by
  rw [Place.before_skip]
  cases same : place.after with
  | nil => rw [same] at member; cases member
  | cons c rest =>
    rw [same] at member
    exact member

/-- A run reaches the end of the line if all that is left belongs to the class. -/
theorem drop_runLength_isEmpty (isMember : Char → Bool) (rest : List Char) :
    (rest.drop (runLength isMember rest)).isEmpty = rest.all isMember := by
  induction rest with
  | nil => rfl
  | cons c rest ih =>
    by_cases member : isMember c = true
    · rw [runLength_cons_of_mem rest member, Nat.add_comm, List.drop_succ_cons, ih, List.all_cons,
        member, Bool.true_and]
    · have none : runLength isMember (c :: rest) = 0 := by simp [runLength, member]
      rw [none, List.all_cons, Bool.eq_false_iff.mpr member, Bool.false_and]
      rfl

theorem runLength_of_all {isMember : Char → Bool} {rest : List Char}
    (members : rest.all isMember = true) : runLength isMember rest = rest.length := by
  induction rest with
  | nil => rfl
  | cons c rest ih =>
    obtain ⟨member, others⟩ := Bool.and_eq_true_iff.mp members
    rw [runLength_cons_of_mem rest member, ih others, List.length_cons, Nat.add_comm]

namespace Pattern

variable {α : Type} {isMember : Char → Bool} {next : Place → Option α}

/-- Where `next` fails behind a run of the class, it fails in front of it. -/
def Commits (isMember : Char → Bool) (next : Place → Option α) : Prop :=
  ∀ place, next (place.skip (runLength isMember place.after)) = none → next place = none

/-- The same for places that stand behind a character of the class. -/
def CommitsWithin (isMember : Char → Bool) (next : Place → Option α) : Prop :=
  ∀ place, place.before.head?.any isMember = true →
    next (place.skip (runLength isMember place.after)) = none → next place = none

theorem Commits.within (commits : Commits isMember next) : CommitsWithin isMember next :=
  fun place _ => commits place

theorem commits_of_blocked
    (blocked : ∀ place : Place, place.after.head?.any isMember = true → next place = none) :
    Commits isMember next := by
  intro place failed
  by_cases member : place.after.head?.any isMember = true
  · exact blocked place member
  · rw [runLength_eq_zero.mpr (Bool.eq_false_iff.mpr member), Place.skip_zero] at failed
    exact failed

theorem commits_of_isSome (succeeds : ∀ place, (next place).isSome = true) :
    Commits isMember next := by
  intro place failed
  have found := succeeds (place.skip (runLength isMember place.after))
  rw [failed] at found
  cases found

theorem beq_eq_false_of_not_mem {other : Char} (outside : isMember other = false) {c : Char}
    (member : isMember c = true) : (c == other) = false := by
  rw [beq_eq_false_iff_ne]
  rintro rfl
  rw [outside] at member
  cases member

/-- What has to start with a character of another class cannot start inside a run. -/
theorem commits_one {isOther : Char → Bool}
    (disjoint : ∀ c, isMember c = true → isOther c = false) :
    Commits isMember ((one isOther).tryThen next) := by
  apply commits_of_blocked
  intro place member
  obtain ⟨c, first, isIn⟩ := (Option.any_eq_true _ _).mp member
  rw [tryThen_one, first, Option.any_some, disjoint c isIn]
  rfl

theorem commits_lineEnd : Commits isMember (lineEnd.tryThen next) := by
  apply commits_of_blocked
  intro place member
  rw [tryThen_lineEnd]
  cases same : place.after with
  | nil => rw [same] at member; cases member
  | cons c rest => rfl

/-- The engine's first try is its last one wherever `inside` holds, if `inside` is kept by steps
over the class and what follows commits there. -/
theorem tryThen_star_of_inside (inside : Place → Prop)
    (kept : ∀ place : Place, place.after.head?.any isMember = true → inside (place.skip 1))
    (commits : ∀ place, inside place →
      next (place.skip (runLength isMember place.after)) = none → next place = none)
    {place : Place} (start : inside place) :
    (star (one isMember)).tryThen next place =
      next (place.skip (runLength isMember place.after)) := by
  induction same : place.after generalizing place with
  | nil =>
    rw [tryThen_star_one, same]
    rfl
  | cons c rest ih =>
    rw [tryThen_star_one, ← same]
    by_cases member : place.after.head?.any isMember = true
    · have rest_eq : (place.skip 1).after = rest := by rw [Place.after_skip, same]; rfl
      have deeper := ih (kept place member) rest_eq
      rw [if_pos member, deeper, ← rest_eq, Place.skip_skip, runLength_after_skip_one member]
      cases found : next (place.skip (runLength isMember place.after)) with
      | none => exact commits place start found
      | some result => rfl
    · rw [if_neg member, runLength_eq_zero.mpr (Bool.eq_false_iff.mpr member), Place.skip_zero]

theorem tryThen_star (commits : Commits isMember next) (place : Place) :
    (star (one isMember)).tryThen next place =
      next (place.skip (runLength isMember place.after)) :=
  tryThen_star_of_inside (fun _ => True) (fun _ _ => trivial) (fun place _ => commits place) trivial

theorem tryThen_star_within (commits : CommitsWithin isMember next) {place : Place}
    (behind : place.before.head?.any isMember = true) :
    (star (one isMember)).tryThen next place =
      next (place.skip (runLength isMember place.after)) := by
  exact tryThen_star_of_inside (fun place => place.before.head?.any isMember = true)
    (fun _ member => head_before_skip_one member) commits behind

theorem tryThen_plus (commits : CommitsWithin isMember next) (place : Place) :
    (plus (one isMember)).tryThen next place =
      if 0 < runLength isMember place.after then
        next (place.skip (runLength isMember place.after))
      else none := by
  rw [plus, tryThen_seq, tryThen_one]
  by_cases member : place.after.head?.any isMember = true
  · rw [if_pos member, if_pos (runLength_pos.mpr member),
      tryThen_star_within commits (head_before_skip_one member), Place.skip_skip,
      runLength_after_skip_one member]
  · rw [if_neg member, if_neg (fun positive => member (runLength_pos.mp positive))]

end Pattern

end QueryHighlight.Scan
