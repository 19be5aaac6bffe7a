import RedDB.Cluster.WriteGate

namespace RedDB.Cluster

open List Library RangeOwnership Prod

inductive SplitSide
  | lower
  | upper
  deriving DecidableEq

inductive SplitError
  | bounds (error : RangeBoundsError)
  | movedIdCollision (id : Nat)
  deriving DecidableEq

structure RangeSplit where
  retained : RangeOwnership
  moved : RangeOwnership
  deriving DecidableEq

def RangeSplit.apply (split : RangeSplit) : Program ShardOwnershipCatalog CatalogError Unit := do
  let _ ← ShardOwnershipCatalog.applyUpdate split.retained
  let _ ← ShardOwnershipCatalog.applyUpdate split.moved
  pure ()

def sideBounds (side : SplitSide) (lower upper : RangeBounds) : RangeBounds × RangeBounds :=
  match side with
  | .lower => (upper, lower)
  | .upper => (lower, upper)

def enlist (replicas : List NodeIdentity) (target : NodeIdentity) : List NodeIdentity :=
  if target ∈ replicas then replicas else replicas ++ [target]

def splitRange (range : RangeOwnership) (splitKey : Key) (movedSide : SplitSide) (movedId : Nat)
    (target : NodeIdentity) : Except SplitError RangeSplit :=
  if movedId = range.rangeId then .error (.movedIdCollision movedId)
  else
    match range.bounds.splitAt splitKey with
    | .error e => .error (.bounds e)
    | .ok (lower, upper) =>
      let (retainedBounds, movedBounds) := sideBounds movedSide lower upper
      .ok {
        retained := range.withBounds retainedBounds
        moved := .establish range.collection movedId range.shardKeyMode movedBounds range.owner
          (enlist range.replicas target) range.placement }

namespace ShardOwnershipCatalog

inductive CatalogOp
  | declare (collection : CollectionId) (mode : ShardKeyMode)
  | update (entry : RangeOwnership)

def perform : CatalogOp → ShardOwnershipCatalog → ShardOwnershipCatalog
  | .declare collection mode, c => (declareCollection collection mode c).2
  | .update entry, c => (applyUpdate entry c).2

def build (ops : List CatalogOp) : ShardOwnershipCatalog := ops.foldl (fun c op => perform op c) new

section

variable {accepted : List RangeOwnership} {c : ShardOwnershipCatalog}

theorem Leads.declare (leads : Leads accepted c) (collection : CollectionId) (mode : ShardKeyMode) :
    Leads accepted (declareCollection collection mode c).2 := by
  have declared (agrees : ∀ u ∈ accepted, u.collection = collection → u.shardKeyMode = mode) :
      Leads accepted { c with collections := c.collections.insert collection mode } := by
    refine ⟨leads.roles, ?_, leads.held, leads.known, leads.apart⟩
    intro u member
    show (c.collections.insert collection mode).get? u.collection = _
    rw [SortedMap.get?_insert]
    split_ifs with same
    · rw [agrees u member same]
    · exact leads.modes u member
  simp only [declareCollection, bind, Program.read]
  cases known : c.collections.get? collection with
  | none =>
    refine declared fun u member same => ?_
    rw [← same, leads.modes u member] at known
    cases known
  | some standing =>
    by_cases differs : standing ≠ mode
    · simpa [differs, Program.fail] using leads
    · have equal := not_not.mp differs
      have changed := declared fun u member same => by
        rw [← same, leads.modes u member] at known
        rw [Option.some.inj known, equal]
      simpa [equal, Program.modify] using changed

theorem Leads.perform (leads : Leads accepted c) (op : CatalogOp) : ∃ accepted, Leads accepted (perform op c) := by
  cases op with
  | declare collection mode => exact ⟨accepted, leads.declare collection mode⟩
  | update entry =>
    rcases applyUpdate_state c entry with ⟨accepts, state⟩ | ⟨-, state⟩
    · have stored := leads.store accepts
      rw [← state] at stored
      exact ⟨_, stored⟩
    · rw [← state] at leads
      exact ⟨accepted, leads⟩

theorem leads_build (ops : List CatalogOp) : ∃ accepted, Leads accepted (build ops) := by
  have run {accepted : List RangeOwnership} {c : ShardOwnershipCatalog} (leads : Leads accepted c) :
      ∃ accepted, Leads accepted (ops.foldl (fun c op => ShardOwnershipCatalog.perform op c) c) := by
    induction ops generalizing accepted c with
    | nil => exact ⟨accepted, leads⟩
    | cons op rest ih =>
      obtain ⟨more, performed⟩ := leads.perform op
      exact ih performed
  exact run Leads.init

end

end ShardOwnershipCatalog

section

variable {r other lower upper : RangeBounds} {at_ : Key}

theorem RangeBounds.splitAt_overlaps (split : r.splitAt at_ = .ok (lower, upper)) (clear : other.overlaps r = false) :
    other.overlaps lower = false ∧ other.overlaps upper = false := by
  unfold splitAt at split
  split_ifs at split with inside
  obtain ⟨rfl, rfl⟩ : _ = lower ∧ _ = upper := by simpa using split
  have apart := of_decide_eq_false clear
  refine ⟨decide_eq_false fun shared => apart ⟨shared.1.trans inside.2, shared.2⟩,
    decide_eq_false fun shared => apart ⟨shared.1, inside.1.trans shared.2⟩⟩

theorem RangeBounds.splitAt_apart (split : r.splitAt at_ = .ok (lower, upper)) : lower.overlaps upper = false := by
  unfold splitAt at split
  split_ifs at split with inside
  obtain ⟨rfl, rfl⟩ : _ = lower ∧ _ = upper := by simpa using split
  exact decide_eq_false fun shared => lt_irrefl _ shared.2

end

structure Splits (range : RangeOwnership) (movedId : Nat) (target : NodeIdentity) (split : RangeSplit) : Prop where
  fresh : movedId ≠ range.rangeId
  retained : ∃ bounds, split.retained = range.withBounds bounds
  moved : ∃ bounds, split.moved = .establish range.collection movedId range.shardKeyMode bounds range.owner
    (enlist range.replicas target) range.placement
  tiles : ∀ key, range.bounds.contains key = (split.retained.bounds.contains key != split.moved.bounds.contains key)
  within : ∀ other : RangeBounds, other.overlaps range.bounds = false →
    other.overlaps split.retained.bounds = false ∧ other.overlaps split.moved.bounds = false
  apart : split.retained.bounds.overlaps split.moved.bounds = false

variable {range : RangeOwnership} {movedId : Nat} {target : NodeIdentity} {split : RangeSplit}

theorem splits_of_splitRange {splitKey : Key} {side : SplitSide}
    (planned : splitRange range splitKey side movedId target = .ok split) : Splits range movedId target split := by
  unfold splitRange at planned
  split_ifs at planned with collides
  cases divided : range.bounds.splitAt splitKey with
  | error e => simp [divided] at planned
  | ok children =>
    obtain ⟨lower, upper⟩ := children
    simp only [divided, Except.ok.injEq] at planned
    have tiles (key : Key) : range.bounds.contains key = (lower.contains key != upper.contains key) :=
      RangeBounds.splitAt_tiles divided
    have apart := RangeBounds.splitAt_apart divided
    have within (other : RangeBounds) (clear : other.overlaps range.bounds = false) :
        other.overlaps lower = false ∧ other.overlaps upper = false := RangeBounds.splitAt_overlaps divided clear
    cases side with
    | lower =>
      obtain rfl := planned
      refine ⟨collides, ⟨_, rfl⟩, ⟨_, rfl⟩, fun key => ?_, fun other clear => (within other clear).symm, ?_⟩
      · rw [tiles, bne_comm]
        rfl
      · rw [RangeBounds.overlaps_comm]
        exact apart
    | upper =>
      obtain rfl := planned
      exact ⟨collides, ⟨_, rfl⟩, ⟨_, rfl⟩, tiles, within, apart⟩

theorem Splits.owner (splits : Splits range movedId target split) :
    split.moved.owner = range.owner ∧ split.retained.owner = range.owner := by
  obtain ⟨bounds, retained⟩ := splits.retained
  obtain ⟨movedBounds, moved⟩ := splits.moved
  rw [retained, moved]
  exact ⟨rfl, rfl⟩

theorem Splits.contains_of_child {child : RangeOwnership} {key : Key} (splits : Splits range movedId target split)
    (part : child = split.moved ∨ child = split.retained) (contained : child.bounds.contains key = true) :
    range.bounds.contains key = true := by
  have both (kept : split.retained.bounds.contains key = true) (gone : split.moved.bounds.contains key = true) :
      False := by
    have shared := RangeBounds.overlaps_of_contains kept gone
    rw [splits.apart] at shared
    cases shared
  rw [splits.tiles key]
  rcases part with rfl | rfl
  · cases kept : split.retained.bounds.contains key with
    | true => exact (both kept contained).elim
    | false => simp [contained]
  · cases gone : split.moved.bounds.contains key with
    | true => exact (both contained gone).elim
    | false => simp [contained]

section

variable {entry : RangeOwnership} {seen replicas : List NodeIdentity}

theorem RangeOwnership.admitRoles_ok : (∃ admitted, entry.admitRoles seen replicas = .ok admitted) ↔
      replicas.Nodup ∧ entry.owner ∉ replicas ∧ ∀ replica ∈ replicas, replica ∉ seen := by
  induction replicas generalizing seen with
  | nil => simp [admitRoles]
  | cons replica rest ih =>
    unfold admitRoles
    by_cases refused : replica = entry.owner ∨ replica ∈ seen
    · simp only [refused, if_true, reduceCtorEq, exists_false, false_iff]
      rintro ⟨-, owner, clear⟩
      rcases refused with rfl | listed
      · exact owner mem_cons_self
      · exact clear replica mem_cons_self listed
    · obtain ⟨different, unlisted⟩ := not_or.mp refused
      rw [if_neg refused, ih]
      simp only [nodup_cons, mem_cons, not_or, forall_eq_or_imp]
      constructor
      · rintro ⟨nodup, owner, clear⟩
        exact ⟨⟨fun again => (clear replica again).1 rfl, nodup⟩, ⟨Ne.symm different, owner⟩, unlisted,
          fun other member => (clear other member).2⟩
      · rintro ⟨⟨once, nodup⟩, ⟨-, owner⟩, -, clear⟩
        exact ⟨nodup, owner, fun other member => ⟨fun same => once (same ▸ member), clear other member⟩⟩

theorem RangeOwnership.roles_withBounds (entry : RangeOwnership) (bounds : RangeBounds) :
    (entry.withBounds bounds).validateReplicaRoles = entry.validateReplicaRoles := by
  have same (seen replicas : List NodeIdentity) :
      (entry.withBounds bounds).admitRoles seen replicas = entry.admitRoles seen replicas := by
    induction replicas generalizing seen with
    | nil => rfl
    | cons replica rest ih =>
      unfold admitRoles
      rw [ih]
      rfl
  simp only [validateReplicaRoles, same]
  rfl

theorem RangeOwnership.replicas_of_roles (valid : entry.validateReplicaRoles = .ok ()) :
    entry.replicas.Nodup ∧ entry.owner ∉ entry.replicas := by
  unfold validateReplicaRoles at valid
  obtain ⟨seen, admitted, -⟩ := except_bind_ok valid
  obtain ⟨nodup, owner, -⟩ := admitRoles_ok.mp ⟨seen, admitted⟩
  exact ⟨nodup, owner⟩

theorem RangeOwnership.roles_of_replicas (nodup : entry.replicas.Nodup) (owner : entry.owner ∉ entry.replicas)
    (archive : entry.compressedArchiveReplicas = []) : entry.validateReplicaRoles = .ok () := by
  obtain ⟨seen, admitted⟩ := (@admitRoles_ok entry [] _).mpr ⟨nodup, owner, by simp⟩
  simp [validateReplicaRoles, admitted, archive, admitRoles, bind, Except.bind]

theorem enlist_roles {owner target : NodeIdentity} (nodup : replicas.Nodup) (owned : owner ∉ replicas)
    (other : target ≠ owner) : (enlist replicas target).Nodup ∧ owner ∉ enlist replicas target := by
  unfold enlist
  split_ifs with listed
  · exact ⟨nodup, owned⟩
  · have apart : ∀ replica ∈ replicas, ∀ added ∈ [target], replica ≠ added := by
      intro replica member added new same
      rw [mem_singleton.mp new] at same
      exact listed (same ▸ member)
    refine ⟨nodup_append.mpr ⟨nodup, by simp, apart⟩, ?_⟩
    simp [owned, Ne.symm other]

end

namespace ShardOwnershipCatalog

variable {accepted : List RangeOwnership} {c : ShardOwnershipCatalog} {range : RangeOwnership} {movedId : Nat}
  {target : NodeIdentity} {split : RangeSplit}

section

variable (leads : Leads accepted c) (held : c.ranges.get? range.key = some range)
  (splits : Splits range movedId target split)
include leads held splits

theorem Leads.accepts_retained : c.Accepts split.retained := by
  obtain ⟨bounds, retained⟩ := splits.retained
  have member := (leads.known _ _ held).1
  have within := splits.within
  rw [retained] at within ⊢
  refine ⟨(roles_withBounds range bounds).trans (leads.roles range member), ?_, ?_, ?_⟩
  · intro declared known
    exact Option.some.inj (known.symm.trans (leads.modes range member))
  · intro current stored
    have same : current = range := Option.some.inj (stored.symm.trans held)
    rw [same]
    exact Nat.lt_succ_self _
  · intro k v stored collection other
    have keyed := (leads.known k v stored).2
    refine (within v.bounds (leads.apart _ _ _ _ stored held ?_ other)).1
    rw [← keyed] at collection
    exact collection

theorem Leads.accepts_moved (unused : c.range range.collection movedId = none)
    (other : target ≠ range.owner) : (ShardOwnershipCatalog.store split.retained c).Accepts split.moved := by
  obtain ⟨bounds, retained⟩ := splits.retained
  obtain ⟨movedBounds, moved⟩ := splits.moved
  have member := (leads.known _ _ held).1
  have within := splits.within
  have apart := splits.apart
  have retainedKey : (range.withBounds bounds).key = range.key := rfl
  rw [retained, moved] at within apart
  rw [retained, moved]
  refine ⟨?_, ?_, ?_, ?_⟩
  · obtain ⟨nodup, owned⟩ := replicas_of_roles (leads.roles range member)
    obtain ⟨nodupMoved, ownedMoved⟩ := enlist_roles nodup owned other
    exact roles_of_replicas nodupMoved ownedMoved rfl
  · intro declared known
    rw [store_mode] at known
    exact (Option.some.inj ((if_pos rfl).symm.trans known)).symm
  · intro current stored
    have different : (establish range.collection movedId range.shardKeyMode movedBounds range.owner
        (enlist range.replicas target) range.placement).key ≠ (range.withBounds bounds).key := fun same =>
      splits.fresh (congrArg snd (toLex.injective same))
    rw [store_get?, if_neg different] at stored
    exact absurd (stored.symm.trans unused) (by simp)
  · intro k v stored collection distinct
    rw [store_get?] at stored
    split_ifs at stored with same
    · cases stored
      exact apart
    · obtain ⟨-, keyed⟩ := leads.known k v stored
      rw [← keyed] at collection same
      have ids : v.rangeId ≠ range.rangeId := fun equal => same (by
        rw [retainedKey]
        exact congrArg toLex (Prod.ext collection equal))
      exact (within v.bounds (leads.apart _ _ _ _ stored held collection ids)).2

theorem Leads.apply_split (unused : c.range range.collection movedId = none) (other : target ≠ range.owner) :
    split.apply c = (.ok (), ShardOwnershipCatalog.store split.moved (ShardOwnershipCatalog.store split.retained c)) ∧
      ∃ accepted, Leads accepted (ShardOwnershipCatalog.store split.moved (ShardOwnershipCatalog.store split.retained c)) := by
  have first := leads.accepts_retained held splits
  have second := leads.accepts_moved held splits unused other
  obtain ⟨_, narrowed⟩ := applyUpdate_accepted first
  obtain ⟨_, created⟩ := applyUpdate_accepted second
  refine ⟨?_, _, (leads.store first).store second⟩
  simp only [RangeSplit.apply, bind, pure, narrowed, created]

theorem Leads.mem_split (unused : c.range range.collection movedId = none)
    {u : RangeOwnership} {collection : CollectionId} :
    u ∈ (ShardOwnershipCatalog.store split.moved (ShardOwnershipCatalog.store split.retained c)).rangesFor collection ↔
      ((u = split.moved ∨ u = split.retained) ∧ range.collection = collection) ∨
        (u ∈ c.rangesFor collection ∧ u ≠ range) := by
  obtain ⟨bounds, retained⟩ := splits.retained
  obtain ⟨movedBounds, moved⟩ := splits.moved
  have retainedKey : split.retained.key = range.key := by rw [retained]; rfl
  have movedKey : split.moved.key = toLex (range.collection, movedId) := by rw [moved]; rfl
  have different : split.retained.key ≠ split.moved.key := by
    rw [retainedKey, movedKey]
    exact fun same => splits.fresh (congrArg snd (toLex.injective same)).symm
  rw [mem_rangesFor, mem_rangesFor]
  constructor
  · rintro ⟨k, stored, same⟩
    rw [store_get?, store_get?] at stored
    split_ifs at stored with own kept
    · cases stored
      refine .inl ⟨.inl rfl, ?_⟩
      rw [← same, own, movedKey]
      rfl
    · cases stored
      refine .inl ⟨.inr rfl, ?_⟩
      rw [← same, kept, retainedKey]
      rfl
    · refine .inr ⟨⟨k, stored, same⟩, ?_⟩
      rintro rfl
      exact kept ((leads.known k u stored).2.symm.trans retainedKey.symm)
  · rintro (⟨rfl | rfl, rfl⟩ | ⟨⟨k, stored, same⟩, other⟩)
    · exact ⟨split.moved.key, by rw [store_get?, if_pos rfl], by rw [movedKey]; rfl⟩
    · exact ⟨split.retained.key, by rw [store_get?, if_neg different, store_get?, if_pos rfl],
        by rw [retainedKey]; rfl⟩
    · refine ⟨k, ?_, same⟩
      have notRetained : k ≠ split.retained.key := by
        rintro rfl
        rw [retainedKey, held] at stored
        exact other (Option.some.inj stored).symm
      have notMoved : k ≠ split.moved.key := by
        rintro rfl
        rw [movedKey] at stored
        exact absurd (stored.symm.trans unused) (by simp)
      rw [store_get?, if_neg notMoved, store_get?, if_neg notRetained, stored]

end

structure Tiles (before after : ShardOwnershipCatalog) (range : RangeOwnership) (split : RangeSplit) : Prop where
  inside : ∀ key, range.bounds.contains key = true → ∃ child, (child = split.retained ∨ child = split.moved) ∧
      after.route range.collection key = some child ∧ before.route range.collection key = some range ∧
      child.owner = range.owner ∧ split.retained.bounds.contains key ≠ split.moved.bounds.contains key
  outside : ∀ collection key, ¬ (collection = range.collection ∧ range.bounds.contains key = true) →
    after.route collection key = before.route collection key

theorem Leads.tiles (leads : Leads accepted c) (held : c.ranges.get? range.key = some range)
    (splits : Splits range movedId target split) (unused : c.range range.collection movedId = none)
    {later : List RangeOwnership}
    (after : Leads later (ShardOwnershipCatalog.store split.moved (ShardOwnershipCatalog.store split.retained c))) :
    Tiles c (ShardOwnershipCatalog.store split.moved (ShardOwnershipCatalog.store split.retained c)) range split := by
  have members {u : RangeOwnership} {collection : CollectionId} :=
    @Leads.mem_split _ _ _ _ _ _ leads held splits unused u collection
  refine ⟨?_, ?_⟩
  · intro key contained
    have tiles := splits.tiles key
    rw [contained] at tiles
    have before : c.route range.collection key = some range :=
      leads.route_eq_some.mpr ⟨mem_rangesFor.mpr ⟨_, held, rfl⟩, contained⟩
    have different : split.retained.bounds.contains key ≠ split.moved.bounds.contains key := by
      simpa using tiles.symm
    cases kept : split.retained.bounds.contains key with
    | true =>
      exact ⟨split.retained, .inl rfl, after.route_eq_some.mpr ⟨members.mpr (.inl ⟨.inr rfl, rfl⟩), kept⟩, before,
        splits.owner.2, kept ▸ different⟩
    | false =>
      have gone : split.moved.bounds.contains key = true := by
        rw [kept] at different
        simpa using Ne.symm different
      exact ⟨split.moved, .inr rfl, after.route_eq_some.mpr ⟨members.mpr (.inl ⟨.inl rfl, rfl⟩), gone⟩, before,
        splits.owner.1, kept ▸ different⟩
  · intro collection key outside
    apply Option.ext
    intro u
    rw [after.route_eq_some, leads.route_eq_some, members]
    constructor
    · rintro ⟨⟨child, rfl⟩ | ⟨member, -⟩, contained⟩
      · exact absurd ⟨rfl, splits.contains_of_child child contained⟩ outside
      · exact ⟨member, contained⟩
    · rintro ⟨member, contained⟩
      refine ⟨.inr ⟨member, ?_⟩, contained⟩
      rintro rfl
      obtain ⟨k, stored, same⟩ := mem_rangesFor.mp member
      refine outside ⟨?_, contained⟩
      rw [← same, ← (leads.known k _ stored).2]
      rfl

theorem declareCollection_ranges (collection : CollectionId) (mode : ShardKeyMode) :
    (declareCollection collection mode c).2.ranges = c.ranges := by
  simp only [declareCollection, bind, Program.read]
  cases c.collections.get? collection with
  | none => rfl
  | some standing => by_cases differs : standing = mode <;> simp [differs, Program.fail, Program.modify]

theorem update_of_stored {ops : List CatalogOp} {k : CollectionId ×ₗ Nat} {entry : RangeOwnership}
    (stored : (build ops).ranges.get? k = some entry) : .update entry ∈ ops := by
  induction ops using reverseRecOn with
  | nil => simp [build, new, SortedMap.get?, SortedMap.empty] at stored
  | append_singleton ops op ih =>
    rw [build, foldl_append, foldl_cons, foldl_nil] at stored
    change (perform op (build ops)).ranges.get? k = some entry at stored
    cases op with
    | declare collection mode =>
      rw [perform, declareCollection_ranges] at stored
      exact mem_append_left _ (ih stored)
    | update added =>
      rcases applyUpdate_state (build ops) added with ⟨-, state⟩ | ⟨-, state⟩
      all_goals rw [perform, state] at stored
      · rw [store_get?] at stored
        split_ifs at stored with same
        · rw [Option.some.inj stored]
          exact mem_append_right _ mem_cons_self
        · exact mem_append_left _ (ih stored)
      · exact mem_append_left _ (ih stored)

theorem store_retained_ne (held : c.ranges.get? range.key = some range) (splits : Splits range movedId target split) :
    ShardOwnershipCatalog.store split.retained c ≠ c := by
  obtain ⟨bounds, retained⟩ := splits.retained
  intro same
  have narrowed := congrArg (·.ranges.get? range.key) same
  simp only [retained, store_get?, held, show (range.withBounds bounds).key = range.key from rfl, if_true] at narrowed
  exact absurd (congrArg version (Option.some.inj narrowed)) (Nat.succ_ne_self _)

/-- The moved child is accepted only under an id of its own and with another node as the target. -/
theorem unused_of_accepts (splits : Splits range movedId target split) (issued : ∀ k, ∀ u ∈ c.ranges.get? k, 1 ≤ u.version)
    (accepts : (ShardOwnershipCatalog.store split.retained c).Accepts split.moved) :
    c.range range.collection movedId = none ∧ target ≠ range.owner := by
  obtain ⟨bounds, retained⟩ := splits.retained
  obtain ⟨movedBounds, moved⟩ := splits.moved
  rw [retained, moved] at accepts
  constructor
  · refine Option.eq_none_iff_forall_ne_some.mpr fun current stored => ?_
    have newer := accepts.newer current ?_
    · exact absurd (issued _ _ stored) (Nat.not_le.mpr newer)
    · have different : (establish range.collection movedId range.shardKeyMode movedBounds range.owner
          (enlist range.replicas target) range.placement).key ≠ (range.withBounds bounds).key := fun same =>
        splits.fresh (congrArg snd (toLex.injective same))
      rw [store_get?, if_neg different]
      exact stored
  · rintro rfl
    refine (replicas_of_roles accepts.roles).2 (?_ : range.owner ∈ enlist range.replicas range.owner)
    unfold enlist
    split_ifs with listed
    · exact listed
    · exact mem_append_right _ mem_cons_self

/-- A split is all or nothing exactly if its moved child takes an unused id and its target is not the owner: else
    the second update is refused after the first one has narrowed the range. -/
theorem split_allOrNothing (ops : List CatalogOp) (issued : ∀ entry, .update entry ∈ ops → 1 ≤ entry.version)
    {collection : CollectionId} {rangeId : Nat} {splitKey : Key} {side : SplitSide}
    (held : (build ops).range collection rangeId = some range)
    (planned : splitRange range splitKey side movedId target = .ok split) :
    ((∃ e, (split.apply (build ops)).1 = .error e) ∧ (split.apply (build ops)).2 = build ops ∨
      (split.apply (build ops)).1 = .ok () ∧ Tiles (build ops) (split.apply (build ops)).2 range split) ↔
    (build ops).range collection movedId = none ∧ target ≠ range.owner := by
  obtain ⟨accepted, leads⟩ := leads_build ops
  have splits := splits_of_splitRange planned
  have keyed := (leads.known _ _ held).2
  obtain rfl : range.collection = collection := congrArg fst (toLex.injective keyed)
  rw [ShardOwnershipCatalog.range, ← keyed] at held
  constructor
  · intro whole
    refine unused_of_accepts splits (fun k u stored => issued u (update_of_stored stored)) (by_contra fun refused => ?_)
    obtain ⟨_, narrowed⟩ := applyUpdate_accepted (leads.accepts_retained held splits)
    obtain ⟨e, failed⟩ := applyUpdate_rejected refused
    have partly : split.apply (build ops) = (.error e, ShardOwnershipCatalog.store split.retained (build ops)) := by
      simp only [RangeSplit.apply, bind, narrowed, failed]
    rw [partly] at whole
    rcases whole with ⟨-, unchanged⟩ | ⟨done, -⟩
    · exact store_retained_ne held splits unchanged
    · cases done
  · rintro ⟨unused, other⟩
    obtain ⟨applied, later, after⟩ := leads.apply_split held splits unused other
    rw [applied]
    exact .inr ⟨rfl, leads.tiles held splits unused after⟩

theorem built_ranges_valid (ops : List CatalogOp) :
    let c := build ops
    (∀ k, ∀ u ∈ c.ranges.get? k, u.key = k ∧ u.validateReplicaRoles = .ok ()) ∧
      ∀ k, ∀ u ∈ c.ranges.get? k, c.collections.get? u.collection = some u.shardKeyMode := by
  obtain ⟨_, leads⟩ := leads_build ops
  have known {k u} := leads.known k u
  exact ⟨fun _ u h => ⟨(known h).2, leads.roles u (known h).1⟩, fun _ u h => leads.modes u (known h).1⟩

def wholeRange : RangeOwnership := .establish "events" 1 .ordered .full "a" [] ⟨1, []⟩

def tailRange : RangeOwnership := .establish "events" 2 .ordered ⟨.key [200], .max, by decide⟩ "b" [] ⟨1, []⟩

def headRange : RangeOwnership := .establish "events" 1 .ordered ⟨.min, .key [200], by decide⟩ "a" [] ⟨1, []⟩

theorem split_allOrNothing_upper : ∃ split, splitRange wholeRange [128] .upper 2 "b" = .ok split ∧
    ((∃ e, (split.apply (build [.update wholeRange])).1 = .error e) ∧
      (split.apply (build [.update wholeRange])).2 = build [.update wholeRange] ∨
    (split.apply (build [.update wholeRange])).1 = .ok () ∧
      Tiles (build [.update wholeRange]) (split.apply (build [.update wholeRange])).2 wholeRange split) := by
  obtain ⟨split, planned⟩ : ∃ split, splitRange wholeRange [128] .upper 2 "b" = .ok split := ⟨_, rfl⟩
  have held : (build [.update wholeRange]).range "events" 1 = some wholeRange := by decide +kernel
  have unused : (build [.update wholeRange]).range "events" 2 = none := by decide +kernel
  have issued : ∀ entry, .update entry ∈ [CatalogOp.update wholeRange] → 1 ≤ entry.version := by simp [wholeRange, establish]
  exact ⟨split, planned, (split_allOrNothing [.update wholeRange] issued held planned).mpr ⟨unused, by decide⟩⟩

/-- The owner as the target, or the id of another range, fails the second update after the first one has
    taken the upper keys away from the range. -/
theorem split_half_applied : (∃ split, splitRange wholeRange [128] .upper 2 "a" = .ok split ∧
      (split.apply (build [.update wholeRange])).1 = .error (.invalidReplicaRoles "events" 2) ∧
      (build [.update wholeRange]).route "events" [150] = some wholeRange ∧
      (split.apply (build [.update wholeRange])).2.route "events" [150] = none) ∧
    ∃ split, splitRange headRange [128] .upper 2 "b" = .ok split ∧
      (split.apply (build [.update headRange, .update tailRange])).1 = .error (.staleVersion "events" 2 1 1) ∧
      (build [.update headRange, .update tailRange]).route "events" [150] = some headRange ∧
      (split.apply (build [.update headRange, .update tailRange])).2.route "events" [150] = none := by
  refine ⟨⟨_, rfl, ?_, ?_, ?_⟩, ⟨_, rfl, ?_, ?_, ?_⟩⟩ <;> decide +kernel

end ShardOwnershipCatalog

end RedDB.Cluster
