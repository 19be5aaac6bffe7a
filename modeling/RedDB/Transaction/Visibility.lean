import Mathlib

namespace RedDB.Transaction

def xidNone : Nat := 0

def isVisible (xmin xmax snapshotXid : Nat) (inProgress aborted : Finset Nat) : Bool :=
  if xmin ≠ xidNone ∧ (snapshotXid < xmin ∨ xmin ∈ inProgress ∨ xmin ∈ aborted) then false
  else if xmax ≠ xidNone ∧ xmax ≤ snapshotXid ∧ xmax ∉ inProgress ∧ xmax ∉ aborted then false
  else true

structure Snapshot where
  xid : Nat
  inProgress : Finset Nat
  deriving DecidableEq

def Snapshot.sees (s : Snapshot) (xmin xmax : Nat) : Bool := isVisible xmin xmax s.xid s.inProgress ∅

/-- `x` is a future or an in-progress writer to the snapshot. -/
def Snapshot.Excludes (s : Snapshot) (x : Nat) : Prop := x ≠ xidNone ∧ (s.xid < x ∨ x ∈ s.inProgress)

instance (s : Snapshot) (x : Nat) : Decidable (s.Excludes x) :=
  inferInstanceAs (Decidable (_ ∧ _))

variable {s : Snapshot} {x : Nat}

theorem Snapshot.Excludes.created (excluded : s.Excludes x) (xmax : Nat)
    (aborted : Finset Nat) : isVisible x xmax s.xid s.inProgress aborted = false := by
  obtain ⟨real, future | active⟩ := excluded
  · simp [isVisible, real, future]
  · simp [isVisible, real, active]

theorem Snapshot.Excludes.deleted (excluded : s.Excludes x) (xmin : Nat)
    (aborted : Finset Nat) : isVisible xmin x s.xid s.inProgress aborted =
      isVisible xmin xidNone s.xid s.inProgress aborted := by
  obtain ⟨-, future | active⟩ := excluded
  · simp [isVisible, not_le.mpr future]
  · simp [isVisible, active]

theorem Snapshot.sees_created (real : x ≠ xidNone) : s.sees x xidNone = true ↔ ¬ s.Excludes x := by
  simp [Snapshot.sees, isVisible, Snapshot.Excludes, real]

theorem Snapshot.sees_deleted {xmin : Nat} (real : x ≠ xidNone) :
    s.sees xmin x = true ↔ s.sees xmin xidNone = true ∧ s.Excludes x := by
  by_cases hidden : xmin ≠ xidNone ∧ (s.xid < xmin ∨ xmin ∈ s.inProgress)
  · simp [Snapshot.sees, isVisible, hidden]
  · by_cases excluded : s.Excludes x
    · have same := excluded.deleted xmin ∅
      simp [Snapshot.sees, same, excluded]
    · have effective : x ≤ s.xid ∧ x ∉ s.inProgress := by
        simpa [Snapshot.Excludes, real] using excluded
      simp [Snapshot.sees, isVisible, excluded, real, effective]

/-- A reader: its snapshot, the ids rolled back by the time it reads, and its transaction's own ids. -/
structure SnapshotContext where
  snapshot : Snapshot
  aborted : Finset Nat
  ownXids : Finset Nat

def visibilityCheck (ctx : SnapshotContext) (xmin xmax : Nat) : Bool :=
  if xmin ≠ xidNone ∧ xmin ∈ ctx.aborted then false
  else
    let effectiveXmax := if xmax ≠ xidNone ∧ xmax ∈ ctx.aborted then xidNone else xmax
    if effectiveXmax ≠ xidNone ∧ effectiveXmax ∈ ctx.ownXids then false
    else if xmin ≠ xidNone ∧ xmin ∈ ctx.ownXids then true
    else ctx.snapshot.sees xmin effectiveXmax

theorem visibilityCheck_creator {ctx : SnapshotContext} {xmin xmax : Nat}
    (visible : visibilityCheck ctx xmin xmax = true) : xmin ∈ ctx.ownXids ∨ ¬ ctx.snapshot.Excludes xmin := by
  by_cases own : xmin ∈ ctx.ownXids
  · exact .inl own
  · right
    intro excluded
    simp [visibilityCheck, own, Snapshot.sees, excluded.created] at visible

/-- The reader sees what `x` has written: the rows it created, and its deletions as deletions. -/
def WriteShown (r : SnapshotContext) (x : Nat) : Prop :=
  visibilityCheck r x xidNone = true ∧ ∀ xmin, (xmin ∈ r.ownXids → x ∈ r.ownXids) → visibilityCheck r xmin x = false

/-- To the reader `x` has neither created nor deleted anything. -/
def WriteHidden (r : SnapshotContext) (x : Nat) : Prop :=
  (∀ xmax, visibilityCheck r x xmax = false) ∧ ∀ xmin, visibilityCheck r xmin x = visibilityCheck r xmin xidNone

variable {r : SnapshotContext}

section

variable (real : x ≠ xidNone)
include real

theorem WriteHidden.of_aborted (aborted : x ∈ r.aborted) : WriteHidden r x := by
  constructor
  · intro xmax
    simp [visibilityCheck, real, aborted]
  · intro xmin
    simp [visibilityCheck, real, aborted]

theorem WriteShown.of_own (clean : x ∉ r.aborted) (own : x ∈ r.ownXids) : WriteShown r x := by
  constructor
  · simp [visibilityCheck, real, clean, own]
  · intro xmin _
    simp [visibilityCheck, real, clean, own]

theorem WriteShown.of_seen (clean : x ∉ r.aborted) (seen : ¬ r.snapshot.Excludes x) : WriteShown r x := by
  by_cases own : x ∈ r.ownXids
  · exact .of_own real clean own
  · constructor
    · have created := (Snapshot.sees_created real).mpr seen
      simp [visibilityCheck, clean, own, created]
    · intro xmin stranger
      have foreign : xmin ∉ r.ownXids := fun member => own (stranger member)
      have deleted : r.snapshot.sees xmin x = false := by
        rw [Bool.eq_false_iff]
        exact fun still => seen ((Snapshot.sees_deleted real).mp still).2
      simp [visibilityCheck, clean, own, foreign, deleted]

end

end RedDB.Transaction
