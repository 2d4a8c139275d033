import QueryHighlight.Scan.Tag
import QueryHighlight.Text.Classes
import QueryHighlight.Text.Width

/-!
Regular expressions as a backtracking engine reads them. A pattern that is tried at a place of a
line may end at several places; they are listed in the order in which the engine comes to them, so
the first is the preferred one and the others are what it falls back on when what follows fails.
A word boundary looks at the character before the place too, so a place has both sides of the line.
-/

namespace QueryHighlight.Scan
open Text

/-- A place in a line: what stands before it, the nearest character first, what comes after it,
and the tag of the group that was closed last on the way here. -/
structure Place where
  before : List Char
  after : List Char
  tag : Option Tag := none
  deriving DecidableEq, Repr

namespace Place

/-- The place `count` characters ahead. -/
def skip (place : Place) (count : Nat) : Place :=
  { place with
    before := (place.after.take count).reverse ++ place.before
    after := place.after.drop count }

def tagged (place : Place) (tag : Tag) : Place := { place with tag := some tag }

/-- Bytes of the line before the place. -/
def offset (place : Place) : Nat := byteLength place.before

@[simp] theorem skip_zero (place : Place) : place.skip 0 = place := rfl

@[simp] theorem after_skip (place : Place) (count : Nat) :
    (place.skip count).after = place.after.drop count := rfl

theorem before_skip (place : Place) (count : Nat) :
    (place.skip count).before = (place.after.take count).reverse ++ place.before := rfl

@[simp] theorem after_tagged (place : Place) (tag : Tag) :
    (place.tagged tag).after = place.after := rfl

theorem skip_skip (place : Place) (first second : Nat) :
    (place.skip first).skip second = place.skip (first + second) := by
  simp only [skip, List.drop_drop, ← List.append_assoc, ← List.reverse_append, ← List.take_add]

/-- A step over one character, in the form in which a class takes it. -/
theorem skip_one {place : Place} {c : Char} {rest : List Char} (next : place.after = c :: rest) :
    place.skip 1 = ⟨c :: place.before, rest, place.tag⟩ := by
  simp [skip, next]

theorem offset_skip (place : Place) (count : Nat) :
    (place.skip count).offset = byteLength (place.after.take count) + place.offset := by
  rw [offset, before_skip, byteLength_append, byteLength_reverse, offset]

end Place

inductive Pattern where
  | empty
  | one (isMember : Char → Bool)
  | seq (first second : Pattern)
  | either (first second : Pattern)
  | star (inner : Pattern)
  | lookahead (inner : Pattern)
  | wordBoundary
  | lineEnd
  | group (tag : Tag) (inner : Pattern)

/-- Goes on with a step as often as possible, then gives the steps back one by one. A step that
does not move on is not repeated. -/
def repeated (step : Place → List Place) (place : Place) : List Place :=
  (step place).flatMap (fun further =>
    if further.after.length < place.after.length then repeated step further else []) ++ [place]
termination_by place.after.length
decreasing_by assumption

namespace Pattern

/-- The places where a pattern may end, in the order in which they are tried. -/
def endings : Pattern → Place → List Place
  | empty, place => [place]
  | one isMember, place =>
    match place.after with
    | c :: rest => if isMember c then [⟨c :: place.before, rest, place.tag⟩] else []
    | [] => []
  | seq first second, place => (first.endings place).flatMap second.endings
  | either first second, place => first.endings place ++ second.endings place
  | star inner, place => repeated inner.endings place
  | lookahead inner, place => if (inner.endings place).isEmpty then [] else [place]
  | wordBoundary, place =>
    if place.before.head?.any isWord != place.after.head?.any isWord then [place] else []
  | lineEnd, place => if place.after.isEmpty then [place] else []
  | group tag inner, place => (inner.endings place).map fun ending => ending.tagged tag

/-- The ending that the engine settles on when nothing else has to follow. -/
def preferred (pattern : Pattern) (place : Place) : Option Place := (pattern.endings place).head?

def literal (c : Char) : Pattern := one (· == c)

def plus (inner : Pattern) : Pattern := seq inner (star inner)

def optional (inner : Pattern) : Pattern := either inner empty

theorem endings_one (isMember : Char → Bool) (place : Place) :
    (one isMember).endings place = if place.after.head?.any isMember then [place.skip 1] else [] := by
  unfold endings
  cases same : place.after with
  | nil => rfl
  | cons c rest => rw [Place.skip_one same, List.head?_cons, Option.any_some]

section
variable {α : Type} (next : Place → Option α) (place : Place)

/-- What `next` makes of the first ending at which it makes anything. A pattern in front of others
is understood through this: the others are its `next`. -/
def tryThen (pattern : Pattern) (next : Place → Option α) (place : Place) : Option α :=
  (pattern.endings place).findSome? next

@[simp] theorem tryThen_empty : empty.tryThen next place = next place :=
  List.findSome?_singleton

theorem tryThen_one (isMember : Char → Bool) :
    (one isMember).tryThen next place =
      if place.after.head?.any isMember then next (place.skip 1) else none := by
  rw [tryThen, endings_one]
  split <;> simp

@[simp] theorem tryThen_seq (first second : Pattern) :
    (seq first second).tryThen next = first.tryThen (second.tryThen next) := by
  funext place
  unfold tryThen
  rw [endings]
  induction first.endings place with
  | nil => rfl
  | cons ending others ih =>
    rw [List.flatMap_cons, List.findSome?_append, ih, List.findSome?_cons]
    cases (second.endings ending).findSome? next <;> rfl

@[simp] theorem tryThen_either (first second : Pattern) :
    (either first second).tryThen next place =
      (first.tryThen next place).or (second.tryThen next place) :=
  List.findSome?_append

@[simp] theorem tryThen_optional (inner : Pattern) :
    (optional inner).tryThen next place = (inner.tryThen next place).or (next place) := by
  rw [optional, tryThen_either, tryThen_empty]

@[simp] theorem tryThen_group (tag : Tag) (inner : Pattern) :
    (group tag inner).tryThen next place =
      inner.tryThen (fun ending => next (ending.tagged tag)) place :=
  List.findSome?_map

theorem tryThen_wordBoundary :
    wordBoundary.tryThen next place =
      if place.before.head?.any isWord != place.after.head?.any isWord then next place
      else none := by
  unfold tryThen endings
  split <;> simp

theorem tryThen_lineEnd :
    lineEnd.tryThen next place = if place.after.isEmpty then next place else none := by
  unfold tryThen endings
  split <;> simp

theorem tryThen_lookahead_one (isMember : Char → Bool) :
    (lookahead (one isMember)).tryThen next place =
      if place.after.head?.any isMember then next place else none := by
  rw [tryThen, endings, endings_one]
  split <;> simp

theorem preferred_eq_tryThen (pattern : Pattern) :
    pattern.preferred place = pattern.tryThen some place := by
  unfold preferred tryThen
  cases pattern.endings place <;> rfl

/-- A run of a class takes one character and goes on, or gives up here. -/
theorem tryThen_star_one (isMember : Char → Bool) :
    (star (one isMember)).tryThen next place =
      if place.after.head?.any isMember then
        ((star (one isMember)).tryThen next (place.skip 1)).or (next place)
      else next place := by
  rw [tryThen, endings, repeated, List.findSome?_append, List.findSome?_singleton, endings_one]
  by_cases member : place.after.head?.any isMember = true
  · have shorter : (place.skip 1).after.length < place.after.length := by
      cases same : place.after with
      | nil => rw [same] at member; cases member
      | cons c rest => rw [Place.after_skip, same]; exact Nat.lt_succ_self _
    rw [if_pos member, if_pos member, List.flatMap_singleton, if_pos shorter, tryThen, endings]
  · rw [if_neg member, if_neg member]
    rfl

end

end Pattern

end QueryHighlight.Scan
