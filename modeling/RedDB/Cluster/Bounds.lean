import Mathlib

namespace RedDB.Cluster

abbrev CollectionId := String

abbrev CollectionGroupId := String

abbrev NodeIdentity := String

abbrev Key := List (Fin 256)

instance byteSize : NeZero 256 := ⟨by decide⟩

/-- `Min < every Key < Max`, keys compared lexicographically. -/
abbrev Position := WithBot (WithTop Key)

def Position.key (bytes : Key) : Position := ((bytes : WithTop Key) : Position)

inductive RangeBound
  | min
  | key (bytes : Key)
  | max
  deriving DecidableEq

def RangeBound.position : RangeBound → Position
  | .min => ⊥
  | .key bytes => .key bytes
  | .max => ⊤

@[simp] theorem RangeBound.position_key (bytes : Key) : (RangeBound.key bytes).position = .key bytes := rfl

/-- The half-open partition `[lower, upper)`; an empty or inverted one cannot be built. -/
structure RangeBounds where
  lower : RangeBound
  upper : RangeBound
  proper : lower.position < upper.position
  deriving DecidableEq

inductive RangeBoundsError
  | notProper
  deriving DecidableEq

namespace RangeBounds

def new (lower upper : RangeBound) : Except RangeBoundsError RangeBounds :=
  if proper : lower.position < upper.position then .ok ⟨lower, upper, proper⟩ else .error .notProper

def full : RangeBounds := ⟨.min, .max, bot_lt_top⟩

def contains (r : RangeBounds) (key : Key) : Bool :=
  decide (r.lower.position ≤ .key key ∧ .key key < r.upper.position)

section

variable (r other : RangeBounds)

def overlaps : Bool :=
  decide (r.lower.position < other.upper.position ∧ other.lower.position < r.upper.position)

def laterLower : RangeBound :=
  if other.lower.position ≤ r.lower.position then r.lower else other.lower

def earlierUpper : RangeBound :=
  if r.upper.position ≤ other.upper.position then r.upper else other.upper

end

variable {other r : RangeBounds}

theorem proper_intersection (shared : r.overlaps other = true) :
    (r.laterLower other).position < (r.earlierUpper other).position := by
  obtain ⟨first, second⟩ := of_decide_eq_true shared
  unfold laterLower earlierUpper
  split_ifs
  · exact r.proper
  · exact first
  · exact second
  · exact other.proper

def intersection (r other : RangeBounds) : Option RangeBounds :=
  if shared : r.overlaps other = true then
    some ⟨r.laterLower other, r.earlierUpper other, proper_intersection shared⟩
  else none

def splitAt (r : RangeBounds) (at_ : Key) : Except RangeBoundsError (RangeBounds × RangeBounds) :=
  if inside : r.lower.position < .key at_ ∧ .key at_ < r.upper.position then
    .ok (⟨r.lower, .key at_, inside.1⟩, ⟨.key at_, r.upper, inside.2⟩)
  else .error .notProper

theorem overlaps_comm (r other : RangeBounds) : r.overlaps other = other.overlaps r := by
  simp [overlaps, and_comm]

theorem overlaps_of_contains {key : Key} (first : r.contains key = true)
    (second : other.contains key = true) : r.overlaps other = true := by
  obtain ⟨above, below⟩ := of_decide_eq_true first
  obtain ⟨aboveOther, belowOther⟩ := of_decide_eq_true second
  exact decide_eq_true ⟨lt_of_le_of_lt above belowOther, lt_of_le_of_lt aboveOther below⟩

theorem intersection_eq_none : r.intersection other = none ↔ r.overlaps other = false := by
  simp [intersection]

theorem splitAt_tiles {lower upper : RangeBounds} {at_ key : Key} (split : r.splitAt at_ = .ok (lower, upper)) :
    r.contains key = (lower.contains key != upper.contains key) := by
  unfold splitAt at split
  split_ifs at split with inside
  obtain ⟨rfl, rfl⟩ : _ = lower ∧ _ = upper := by simpa using split
  rcases lt_or_ge (Position.key key) (Position.key at_) with below | above
  · have inner : Position.key key < r.upper.position := below.trans inside.2
    simp [contains, below, inner, not_le.mpr below]
  · have inner : r.lower.position ≤ Position.key key := inside.1.le.trans above
    simp [contains, inner, above, not_lt.mpr above]

end RangeBounds

end RedDB.Cluster
