import RedDB.Cluster.Bounds
import RedDB.Library.Program
import RedDB.Library.Runs
import RedDB.Library.SortedMap

namespace RedDB.Cluster

open List Library Program SortedMap RangeBounds

structure AuthorityCatalogSlice where
  collection : CollectionId
  bounds : RangeBounds
  deriving DecidableEq

structure CollectionGroupAuthority where
  group : CollectionGroupId
  authority : NodeIdentity
  slices : List AuthorityCatalogSlice
  published : slices ≠ []
  deriving DecidableEq

inductive PlacementAuthorityError
  | duplicateCollectionGroup (group : CollectionGroupId)
  | overlappingCatalogSlice (collection : CollectionId) (existingGroup : CollectionGroupId)
      (existingAuthority : NodeIdentity) (attemptedGroup : CollectionGroupId)
      (attemptedAuthority : NodeIdentity) (overlap : RangeBounds)
  deriving DecidableEq

namespace CollectionGroupAuthority

def overlaps (existing attempted : CollectionGroupAuthority) : Option (CollectionId × RangeBounds) :=
  existing.slices.findSome? fun e => attempted.slices.findSome? fun a =>
    if e.collection = a.collection then (e.bounds.intersection a.bounds).map (e.collection, ·) else none

theorem overlaps_eq_none {existing attempted : CollectionGroupAuthority} :
    existing.overlaps attempted = none ↔ ∀ e ∈ existing.slices, ∀ a ∈ attempted.slices,
      e.collection = a.collection → e.bounds.overlaps a.bounds = false := by
  simp only [overlaps, findSome?_eq_none_iff, ite_eq_right_iff, Option.map_eq_none_iff, intersection_eq_none]

/-- The slice of `collection` that the assignment routes contains `key`. -/
def Covers (a : CollectionGroupAuthority) (collection : CollectionId) (key : Key) : Prop :=
  ∃ slice ∈ a.slices, slice.collection = collection ∧ slice.bounds.contains key = true

instance (a : CollectionGroupAuthority) (collection : CollectionId) (key : Key) :
    Decidable (a.Covers collection key) :=
  inferInstanceAs (Decidable (∃ slice ∈ a.slices, _))

def Apart (a b : CollectionGroupAuthority) : Prop := a.overlaps b = none

section

variable {a b : CollectionGroupAuthority} (apart : Apart a b)
include a b apart

theorem Apart.symm : Apart b a := by
  rw [Apart, overlaps_eq_none] at apart ⊢
  intro e first s second same
  rw [overlaps_comm]
  exact apart s second e first same.symm

theorem Apart.not_covers {collection : CollectionId}
    {key : Key} (first : a.Covers collection key) : ¬ b.Covers collection key := by
  rintro ⟨s, second, same, inside⟩
  obtain ⟨e, member, equal, contained⟩ := first
  have clear := overlaps_eq_none.mp apart e member s second (equal.trans same.symm)
  rw [overlaps_of_contains contained inside] at clear
  cases clear

end

end CollectionGroupAuthority

open CollectionGroupAuthority

structure PlacementAuthorityCatalog where
  assignments : SortedMap CollectionGroupId CollectionGroupAuthority

namespace PlacementAuthorityCatalog

abbrev Op := Program PlacementAuthorityCatalog PlacementAuthorityError

def new : PlacementAuthorityCatalog := ⟨.empty⟩

def overlapError (existing attempted : CollectionGroupAuthority) (shared : CollectionId × RangeBounds) :
    PlacementAuthorityError :=
  .overlappingCatalogSlice shared.1 existing.group existing.authority attempted.group
    attempted.authority shared.2

def rejectOverlap (attempted : CollectionGroupAuthority) :
    List CollectionGroupAuthority → Except PlacementAuthorityError Unit
  | [] => .ok ()
  | existing :: rest =>
    match existing.overlaps attempted with
    | some shared => .error (overlapError existing attempted shared)
    | none => rejectOverlap attempted rest

section

variable (c : PlacementAuthorityCatalog) (retiredGroups : List CollectionGroupId) (retiredGroup : CollectionGroupId)

variable (replacements : List CollectionGroupAuthority) (assignment : CollectionGroupAuthority)

def validateAssignment :
    Except PlacementAuthorityError Unit :=
  match c.assignments.get? assignment.group with
  | some _ => .error (.duplicateCollectionGroup assignment.group)
  | none => rejectOverlap assignment c.assignments.values

def assign : Op Unit := do
  let c ← Program.read
  lift (c.validateAssignment assignment)
  Program.modify fun c => ⟨c.assignments.insert assignment.group assignment⟩

def mergeSlices (existing replacement : CollectionGroupAuthority) : CollectionGroupAuthority :=
  { existing with
    slices := existing.slices ++ replacement.slices
    published := by simp [existing.published] }

def place (next : SortedMap CollectionGroupId CollectionGroupAuthority)
    (replacement : CollectionGroupAuthority) :
    Except PlacementAuthorityError (SortedMap CollectionGroupId CollectionGroupAuthority) :=
  match next.get? replacement.group with
  | some existing =>
    match existing.overlaps replacement with
    | some shared => .error (overlapError existing replacement shared)
    | none =>
      if existing.authority ≠ replacement.authority then
        .error (.duplicateCollectionGroup replacement.group)
      else .ok (next.insert existing.group (mergeSlices existing replacement))
  | none => do
    rejectOverlap replacement next.values
    .ok (next.insert replacement.group replacement)

def surviving (retiredGroups : List CollectionGroupId) :
    SortedMap CollectionGroupId CollectionGroupAuthority :=
  c.assignments.filterKeys fun group => !retiredGroups.contains group

def replaceAssignments : Op Unit := do
  let c ← Program.read
  let next ← lift (replacements.foldlM place (c.surviving retiredGroups))
  Program.modify fun _ => ⟨next⟩

def splitCollectionGroupSlice (retained carved : CollectionGroupAuthority) : Op Unit :=
  replaceAssignments [retiredGroup] [retained, carved]

def mergeCollectionGroupSlices (merged : CollectionGroupAuthority) : Op Unit :=
  replaceAssignments retiredGroups [merged]

def reassignCollectionGroupSlice (retained reassigned : CollectionGroupAuthority) : Op Unit :=
  replaceAssignments [retiredGroup] [retained, reassigned]

def forceReplaceAssignments : Op Unit :=
  replaceAssignments retiredGroups replacements

end

variable {standing : List CollectionGroupAuthority}

theorem apart_of_rejectOverlap
    {attempted : CollectionGroupAuthority} (passed : rejectOverlap attempted standing = .ok ()) :
    ∀ s ∈ standing, Apart s attempted := by
  induction standing with
  | nil => simp
  | cons first rest ih =>
    simp only [rejectOverlap] at passed
    cases shared : first.overlaps attempted with
    | some overlap => simp [shared] at passed
    | none =>
      simp only [shared] at passed
      rintro s (_ | ⟨_, later⟩)
      · exact shared
      · exact ih passed s later

inductive PlacementOp
  | assign (assignment : CollectionGroupAuthority)
  | split (retiredGroup : CollectionGroupId) (retained carved : CollectionGroupAuthority)
  | merge (retiredGroups : List CollectionGroupId) (merged : CollectionGroupAuthority)
  | reassign (retiredGroup : CollectionGroupId) (retained reassigned : CollectionGroupAuthority)
  | force (retiredGroups : List CollectionGroupId) (replacements : List CollectionGroupAuthority)

def perform : PlacementOp → Op Unit
  | .assign assignment => assign assignment
  | .split retiredGroup retained carved => splitCollectionGroupSlice retiredGroup retained carved
  | .merge retiredGroups merged => mergeCollectionGroupSlices retiredGroups merged
  | .reassign retiredGroup retained reassigned =>
    reassignCollectionGroupSlice retiredGroup retained reassigned
  | .force retiredGroups replacements => forceReplaceAssignments retiredGroups replacements

section

variable (c : PlacementAuthorityCatalog)

def step (op : PlacementOp) : Option PlacementAuthorityCatalog :=
  some (perform op c).2

def Exclusive : Prop :=
  ∀ first a, c.assignments.get? first = some a → ∀ second b, c.assignments.get? second = some b →
    first ≠ second → ∀ collection key, a.Covers collection key → ¬ b.Covers collection key

/-- A replacement that joins a group that stands, or that an earlier replacement has set up, overlaps
    nothing of the other groups. -/
def JoinsCleanly (standing : List CollectionGroupAuthority) : List CollectionGroupAuthority → Prop
  | [] => True
  | replacement :: rest =>
    (replacement.group ∈ standing.map CollectionGroupAuthority.group →
      ∀ s ∈ standing, s.group ≠ replacement.group → s.overlaps replacement = none) ∧
    JoinsCleanly (replacement :: standing) rest

instance decidableJoinsCleanly : (standing replacements : List CollectionGroupAuthority) →
    Decidable (JoinsCleanly standing replacements)
  | _, [] => .isTrue trivial
  | standing, replacement :: rest =>
    have := decidableJoinsCleanly (replacement :: standing) rest
    inferInstanceAs (Decidable (_ ∧ _))

def Admits : PlacementOp → Prop
  | .assign _ => True
  | .split retiredGroup retained carved =>
    JoinsCleanly (c.surviving [retiredGroup]).values [retained, carved]
  | .merge retiredGroups merged => JoinsCleanly (c.surviving retiredGroups).values [merged]
  | .reassign retiredGroup retained reassigned =>
    JoinsCleanly (c.surviving [retiredGroup]).values [retained, reassigned]
  | .force retiredGroups replacements => JoinsCleanly (c.surviving retiredGroups).values replacements

end

instance (c : PlacementAuthorityCatalog) : (op : PlacementOp) → Decidable (c.Admits op)
  | .assign _ => .isTrue trivial
  | .split _ _ _ | .merge _ _ | .reassign _ _ _ | .force _ _ => decidableJoinsCleanly _ _

structure Ordered (next : SortedMap CollectionGroupId CollectionGroupAuthority) : Prop where
  keyed : ∀ group a, next.get? group = some a → a.group = group
  apart : ∀ first a, next.get? first = some a → ∀ second b, next.get? second = some b →
    first ≠ second → Apart a b

/-- The assignments of `next` are put together from the standing ones of the same group. -/
structure Placed (standing : List CollectionGroupAuthority)
    (next : SortedMap CollectionGroupId CollectionGroupAuthority) : Prop extends Ordered next where
  known : ∀ group a, next.get? group = some a → group ∈ standing.map CollectionGroupAuthority.group
  parts : ∀ group a, next.get? group = some a → ∀ slice ∈ a.slices,
    ∃ s ∈ standing, s.group = group ∧ slice ∈ s.slices

variable {next : SortedMap CollectionGroupId CollectionGroupAuthority}

theorem Ordered.insert (ordered : Ordered next)
    (a : CollectionGroupAuthority)
    (clear : ∀ group b, next.get? group = some b → group ≠ a.group → Apart b a) :
    Ordered (next.insert a.group a) where
  keyed := by
    intro group b held
    rw [get?_insert] at held
    split_ifs at held with same
    · rw [← Option.some.inj held, same]
    · exact ordered.keyed group b held
  apart := by
    intro first b heldFirst second d heldSecond different
    rw [get?_insert] at heldFirst heldSecond
    split_ifs at heldFirst heldSecond with sameFirst sameSecond sameSecond
    · exact absurd (sameFirst.trans sameSecond.symm) different
    · rw [← Option.some.inj heldFirst]
      exact (clear second d heldSecond sameSecond).symm
    · rw [← Option.some.inj heldSecond]
      exact clear first b heldFirst sameFirst
    · exact ordered.apart first b heldFirst second d heldSecond different

variable {c : PlacementAuthorityCatalog}

theorem Ordered.exclusive (ordered : Ordered c.assignments) : Exclusive c :=
  fun first a heldFirst second b heldSecond different _ _ covers =>
    (ordered.apart first a heldFirst second b heldSecond different).not_covers covers

theorem Ordered.filterKeys
    (ordered : Ordered next) (keep : CollectionGroupId → Bool) : Ordered (next.filterKeys keep) where
  keyed := by
    intro group a held
    rw [get?_filterKeys] at held
    split_ifs at held
    exact ordered.keyed group a held
  apart := by
    intro first a heldFirst second b heldSecond different
    rw [get?_filterKeys] at heldFirst heldSecond
    split_ifs at heldFirst heldSecond
    exact ordered.apart first a heldFirst second b heldSecond different

theorem Ordered.surviving (ordered : Ordered c.assignments) (retiredGroups : List CollectionGroupId) :
    Placed (c.surviving retiredGroups).values (c.surviving retiredGroups) := by
  have survivors := ordered.filterKeys fun group => !retiredGroups.contains group
  have standing : ∀ group a, (c.surviving retiredGroups).get? group = some a →
      a ∈ (c.surviving retiredGroups).values ∧ a.group = group := fun group a held =>
    ⟨mem_map.mpr ⟨(group, a), mem_entries.mpr held, rfl⟩, survivors.keyed group a held⟩
  refine ⟨survivors, fun group a held => ?_, fun group a held slice member => ?_⟩
  · obtain ⟨stands, keyed⟩ := standing group a held
    exact mem_map.mpr ⟨a, stands, keyed⟩
  · obtain ⟨stands, keyed⟩ := standing group a held
    exact ⟨a, stands, keyed, member⟩

variable {replacement : CollectionGroupAuthority}

theorem apart_merge {b existing : CollectionGroupAuthority} (first : Apart b existing)
    (second : Apart b replacement) : Apart b (mergeSlices existing replacement) := by
  rw [Apart, overlaps_eq_none] at first second ⊢
  intro e member s merged
  rcases mem_append.mp merged with old | new
  · exact first e member s old
  · exact second e member s new

theorem Placed.apart_of_standing (placed : Placed standing next)
    (clear : ∀ s ∈ standing, s.group ≠ replacement.group → s.overlaps replacement = none)
    {group : CollectionGroupId} {b : CollectionGroupAuthority} (held : next.get? group = some b)
    (different : group ≠ replacement.group) : Apart b replacement := by
  rw [Apart, overlaps_eq_none]
  intro e member
  obtain ⟨s, stands, keyed, part⟩ := placed.parts group b held e member
  exact overlaps_eq_none.mp (clear s stands (keyed ▸ different)) e part

theorem Placed.insert (placed : Placed standing next)
    {a : CollectionGroupAuthority} (same : a.group = replacement.group)
    (clear : ∀ group b, next.get? group = some b → group ≠ a.group → Apart b a)
    (parts : ∀ slice ∈ a.slices, ∃ s ∈ replacement :: standing, s.group = a.group ∧ slice ∈ s.slices) :
    Placed (replacement :: standing) (next.insert a.group a) := by
  refine ⟨placed.toOrdered.insert a clear, fun group b held => ?_, fun group b held => ?_⟩
  · rw [get?_insert] at held
    split_ifs at held with equal
    · simp [equal, same]
    · exact mem_cons_of_mem _ (placed.known group b held)
  · rw [get?_insert] at held
    split_ifs at held with equal
    · obtain rfl := Option.some.inj held
      rw [equal]
      exact parts
    · intro slice member
      obtain ⟨s, stands, found⟩ := placed.parts group b held slice member
      exact ⟨s, mem_cons_of_mem _ stands, found⟩

theorem Placed.place {after : SortedMap CollectionGroupId CollectionGroupAuthority} (placed : Placed standing next)
    (joins : replacement.group ∈ standing.map CollectionGroupAuthority.group →
      ∀ s ∈ standing, s.group ≠ replacement.group → s.overlaps replacement = none)
    (accepted : place next replacement = .ok after) : Placed (replacement :: standing) after := by
  unfold PlacementAuthorityCatalog.place at accepted
  cases held : next.get? replacement.group with
  | some existing =>
    have keyed := placed.keyed _ _ held
    have clear := joins (placed.known _ _ held)
    cases shared : existing.overlaps replacement with
    | some overlap => simp [held, shared] at accepted
    | none =>
      simp only [held, shared] at accepted
      split_ifs at accepted
      obtain rfl := Except.ok.inj accepted
      apply placed.insert (a := mergeSlices existing replacement) keyed
      · intro group b other different
        have outside : group ≠ replacement.group := keyed ▸ different
        exact apart_merge (placed.apart group b other _ existing held outside)
          (placed.apart_of_standing clear other outside)
      · intro slice member
        rcases mem_append.mp member with old | new
        · obtain ⟨s, stands, same, part⟩ := placed.parts _ _ held slice old
          exact ⟨s, mem_cons_of_mem _ stands, same.trans keyed.symm, part⟩
        · exact ⟨replacement, mem_cons_self, keyed.symm, new⟩
  | none =>
    cases rejected : rejectOverlap replacement next.values with
    | error e => simp [held, rejected, bind, Except.bind] at accepted
    | ok =>
      simp only [held, rejected, bind, Except.bind, Except.ok.injEq] at accepted
      subst accepted
      apply placed.insert rfl
      · intro group b other _
        exact apart_of_rejectOverlap rejected b (mem_map.mpr ⟨(group, b), mem_entries.mpr other, rfl⟩)
      · exact fun slice member => ⟨replacement, mem_cons_self, rfl, member⟩

theorem Placed.foldlM {replacements : List CollectionGroupAuthority}
    {after : SortedMap CollectionGroupId CollectionGroupAuthority} (placed : Placed standing next)
    (joins : JoinsCleanly standing replacements)
    (accepted : replacements.foldlM PlacementAuthorityCatalog.place next = .ok after) : Ordered after := by
  induction replacements generalizing standing next with
  | nil =>
    obtain rfl := Except.ok.inj accepted
    exact placed.toOrdered
  | cons replacement rest ih =>
    simp only [foldlM_cons, bind, Except.bind] at accepted
    cases first : PlacementAuthorityCatalog.place next replacement with
    | error e => simp [first] at accepted
    | ok middle =>
      simp only [first] at accepted
      exact ih (placed.place joins.1 first) joins.2 accepted

section

variable (ordered : Ordered c.assignments)
include ordered

theorem Ordered.assign (assignment : CollectionGroupAuthority) :
    Ordered (PlacementAuthorityCatalog.assign assignment c).2.assignments := by
  simp only [PlacementAuthorityCatalog.assign, bind, Program.read, lift, Program.modify]
  cases valid : c.validateAssignment assignment with
  | error e => exact ordered
  | ok =>
    unfold validateAssignment at valid
    cases held : c.assignments.get? assignment.group with
    | some existing => simp [held] at valid
    | none =>
      simp only [held] at valid
      apply ordered.insert
      intro group b other _
      exact apart_of_rejectOverlap valid b (mem_map.mpr ⟨(group, b), mem_entries.mpr other, rfl⟩)

theorem Ordered.replaceAssignments
    {retiredGroups : List CollectionGroupId} {replacements : List CollectionGroupAuthority}
    (joins : JoinsCleanly (c.surviving retiredGroups).values replacements) :
    Ordered (PlacementAuthorityCatalog.replaceAssignments retiredGroups replacements c).2.assignments := by
  simp only [PlacementAuthorityCatalog.replaceAssignments, bind, Program.read, lift, Program.modify]
  cases folded : replacements.foldlM PlacementAuthorityCatalog.place (c.surviving retiredGroups) with
  | error e => exact ordered
  | ok next => exact (ordered.surviving retiredGroups).foldlM joins folded

theorem Ordered.perform {op : PlacementOp} (admitted : c.Admits op) : Ordered (perform op c).2.assignments := by
  cases op with
  | assign assignment => exact ordered.assign assignment
  | split | merge | reassign | force => exact ordered.replaceAssignments admitted

end

theorem perform_error {op : PlacementOp} {e : PlacementAuthorityError}
    (failed : (perform op c).1 = .error e) : (perform op c).2 = c := by
  have assigned (a : CollectionGroupAuthority) (failed : (assign a c).1 = .error e) : (assign a c).2 = c := by
    simp only [assign, bind, Program.read, lift, Program.modify] at failed ⊢
    cases valid : c.validateAssignment a with
    | error e => rfl
    | ok => simp [valid] at failed
  have replaced (groups : List CollectionGroupId) (replacements : List CollectionGroupAuthority)
      (failed : (replaceAssignments groups replacements c).1 = .error e) :
      (replaceAssignments groups replacements c).2 = c := by
    simp only [replaceAssignments, bind, Program.read, lift, Program.modify] at failed ⊢
    cases folded : replacements.foldlM place (c.surviving groups) with
    | error e => rfl
    | ok next => simp [folded] at failed
  cases op with
  | assign a => exact assigned a failed
  | split | merge | reassign | force => exact replaced _ _ failed

theorem exclusive_of_clean_joins {ops : List PlacementOp} {c : PlacementAuthorityCatalog}
    (run : Run (Guarded (Steps step) Admits) new ops c) :
    Exclusive c ∧ ∀ op e, (perform op c).1 = .error e → (perform op c).2 = c := by
  have initial : Ordered new.assignments := by
    constructor <;> simp [new, empty, get?]
  have preserved (before : PlacementAuthorityCatalog) (op : PlacementOp) (after : PlacementAuthorityCatalog)
      (ordered : Ordered before.assignments) (taken : Guarded (Steps step) Admits before op after) :
      Ordered after.assignments :=
    Option.some.inj taken.2 ▸ ordered.perform taken.1
  have ordered : Ordered c.assignments := run.invariant preserved initial
  exact ⟨ordered.exclusive, fun _ _ => perform_error⟩

def low : CollectionGroupAuthority := ⟨"low", "n1", [⟨"c", ⟨.min, .key [1], by decide⟩⟩], by decide⟩

def middle : CollectionGroupAuthority := ⟨"middle", "n2", [⟨"c", ⟨.key [1], .key [2], by decide⟩⟩], by decide⟩

def high : CollectionGroupAuthority := ⟨"high", "n3", [⟨"c", ⟨.key [2], .max, by decide⟩⟩], by decide⟩

/-- The lower half of `low`, and its upper half on its way to `middle`. -/
def lowLeft : CollectionGroupAuthority := ⟨"low", "n1", [⟨"c", ⟨.min, .key [0, 5], by decide⟩⟩], by decide⟩

def lowRight : CollectionGroupAuthority := ⟨"middle", "n2", [⟨"c", ⟨.key [0, 5], .key [1], by decide⟩⟩], by decide⟩

theorem exclusive_of_clean_joins_three_groups : ∃ c, Run (Guarded (Steps step) Admits) new
        [.assign low, .assign middle, .assign high, .reassign "low" lowLeft lowRight] c ∧
      (c.assignments.get? "middle").map (fun a => a.slices.length) = some 2 ∧ Exclusive c := by
  obtain ⟨c, run, final⟩ := execute_reaches step Admits new
    [.assign low, .assign middle, .assign high, .reassign "low" lowLeft lowRight]
    (fun c => decide ((c.assignments.get? "middle").map (fun a => a.slices.length) = some 2)) (by decide)
  exact ⟨c, run, of_decide_eq_true final, (exclusive_of_clean_joins run).1⟩

/-- A slice of `high` handed to `middle` along with `low`'s own group. -/
def highPart : CollectionGroupAuthority := ⟨"middle", "n2", [⟨"c", ⟨.key [3], .key [4], by decide⟩⟩], by decide⟩

theorem joined_slice_routed_twice :
    ∃ c, Run (Steps step) new [.assign low, .assign middle, .assign high, .reassign "low" low highPart] c ∧
      (perform (.reassign "low" low highPart)
        (perform (.assign high) (perform (.assign middle) (perform (.assign low) new).2).2).2).1 = .ok () ∧
      (∃ a, c.assignments.get? "middle" = some a ∧ a.Covers "c" [3]) ∧
      (∃ b, c.assignments.get? "high" = some b ∧ b.Covers "c" [3]) ∧ ¬ Exclusive c := by
  obtain ⟨c, run, final⟩ := execute_reaches step (fun _ _ => True) new
    [.assign low, .assign middle, .assign high, .reassign "low" low highPart]
    (fun c => (c.assignments.get? "middle").any (fun a : CollectionGroupAuthority => decide (a.Covers "c" [3])) &&
      (c.assignments.get? "high").any (fun b : CollectionGroupAuthority => decide (b.Covers "c" [3]))) (by decide)
  simp only [Bool.and_eq_true, Option.any_eq_true, decide_eq_true_eq] at final
  obtain ⟨⟨a, heldMiddle, coversMiddle⟩, b, heldHigh, coversHigh⟩ := final
  refine ⟨c, run.mono fun _ _ _ => And.right, by rfl, ⟨a, heldMiddle, coversMiddle⟩,
    ⟨b, heldHigh, coversHigh⟩, fun exclusive => ?_⟩
  exact exclusive _ a heldMiddle _ b heldHigh (by decide) "c" [3] coversMiddle coversHigh

end PlacementAuthorityCatalog

end RedDB.Cluster
