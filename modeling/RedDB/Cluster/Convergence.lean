import RedDB.Cluster.Catalog

namespace RedDB.Cluster

open List Library SortedMap Program

namespace ShardOwnershipCatalog

structure Accepts (c : ShardOwnershipCatalog) (entry : RangeOwnership) : Prop where
  roles : entry.validateReplicaRoles = .ok ()
  mode : ∀ declared, c.collections.get? entry.collection = some declared → declared = entry.shardKeyMode
  newer : ∀ current, c.ranges.get? entry.key = some current → current.version < entry.version
  siblings : ∀ k range, c.ranges.get? k = some range → (ofLex k).1 = entry.collection →
    range.rangeId ≠ entry.rangeId → range.bounds.overlaps entry.bounds = false

variable {c : ShardOwnershipCatalog} {entry : RangeOwnership}

theorem checkMode_ok : c.checkMode entry = .ok () ↔
      ∀ declared, c.collections.get? entry.collection = some declared → declared = entry.shardKeyMode := by
  unfold checkMode
  cases c.collections.get? entry.collection with
  | none => simp
  | some declared =>
    by_cases same : declared = entry.shardKeyMode <;> simp [same]

theorem checkSiblings_ok : c.checkSiblings entry = .ok () ↔ ∀ k range, c.ranges.get? k = some range →
      (ofLex k).1 = entry.collection → range.rangeId ≠ entry.rangeId →
        range.bounds.overlaps entry.bounds = false := by
  have none_iff : c.checkSiblings entry = .ok () ↔ c.overlappingSibling entry = none := by
    unfold checkSiblings
    cases c.overlappingSibling entry <;> simp
  rw [none_iff]
  simp only [overlappingSibling, rangesFor, Option.map_eq_none_iff, find?_eq_none, mem_map,
    mem_filter, decide_eq_true_eq, Bool.and_eq_true, ← mem_entries]
  constructor
  · intro clear k range held same other
    have apart := clear range ⟨(k, range), ⟨held, same⟩, rfl⟩
    simpa [other] using apart
  · rintro clear _ ⟨⟨k, range⟩, ⟨held, same⟩, rfl⟩ ⟨other, shared⟩
    rw [clear k range held same other] at shared
    cases shared

theorem applyUpdate_accepted
    (accepts : c.Accepts entry) : ∃ outcome, applyUpdate entry c = (.ok outcome, store entry c) := by
  have mode := checkMode_ok.mpr accepts.mode
  have siblings := checkSiblings_ok.mpr accepts.siblings
  simp only [applyUpdate, bind, pure, lift, Program.read, Program.modify, accepts.roles, mode]
  cases held : c.ranges.get? entry.key with
  | none => exact ⟨.created, by simp [siblings]⟩
  | some current =>
    have newer := not_le.mpr (accepts.newer current held)
    exact ⟨.updated, by simp [siblings, newer]⟩

theorem applyUpdate_rejected (rejects : ¬ c.Accepts entry) : ∃ e, applyUpdate entry c = (.error e, c) := by
  simp only [applyUpdate, bind, pure, lift, Program.read, Program.modify]
  cases roles : entry.validateReplicaRoles with
  | error e => exact ⟨e, by simp⟩
  | ok =>
    cases mode : c.checkMode entry with
    | error e => exact ⟨e, by simp [mode]⟩
    | ok =>
      cases held : c.ranges.get? entry.key with
      | none =>
        cases siblings : c.checkSiblings entry with
        | error e => exact ⟨e, by simp [mode, held, siblings]⟩
        | ok =>
          refine absurd ⟨roles, checkMode_ok.mp mode, ?_, checkSiblings_ok.mp siblings⟩ rejects
          simp [held]
      | some current =>
        by_cases stale : entry.version ≤ current.version
        · exact ⟨.staleVersion entry.collection entry.rangeId current.version entry.version,
            by simp [mode, held, stale, fail]⟩
        · cases siblings : c.checkSiblings entry with
          | error e => exact ⟨e, by simp [mode, held, stale, siblings]⟩
          | ok =>
            refine absurd ⟨roles, checkMode_ok.mp mode, ?_, checkSiblings_ok.mp siblings⟩ rejects
            intro other same
            rw [held] at same
            exact Option.some.inj same ▸ not_le.mp stale

def applyAll (c : ShardOwnershipCatalog) (updates : List RangeOwnership) : ShardOwnershipCatalog :=
  updates.foldl (fun c entry => (applyUpdate entry c).2) c

def AcceptsAll (c : ShardOwnershipCatalog) : List RangeOwnership → Prop
  | [] => True
  | entry :: rest => (∃ outcome, (applyUpdate entry c).1 = .ok outcome) ∧
      AcceptsAll (applyUpdate entry c).2 rest

def Delivers (updates delivery : List RangeOwnership) : Prop := ∀ entry, entry ∈ delivery ↔ entry ∈ updates

def Final (updates : List RangeOwnership) (f : RangeOwnership) : Prop :=
  f ∈ updates ∧ ∀ u ∈ updates, u.key = f.key → u.version ≤ f.version

theorem accepts_of_ok {outcome : UpdateOutcome} (ok : (applyUpdate entry c).1 = .ok outcome) : c.Accepts entry := by
  by_contra rejects
  obtain ⟨e, failed⟩ := applyUpdate_rejected rejects
  rw [failed] at ok
  cases ok

theorem applyUpdate_state (c : ShardOwnershipCatalog) (entry : RangeOwnership) :
    (c.Accepts entry ∧ (applyUpdate entry c).2 = store entry c) ∨
      (¬ c.Accepts entry ∧ (applyUpdate entry c).2 = c) := by
  by_cases accepts : c.Accepts entry
  · obtain ⟨outcome, applied⟩ := applyUpdate_accepted accepts
    exact .inl ⟨accepts, by rw [applied]⟩
  · obtain ⟨e, failed⟩ := applyUpdate_rejected accepts
    exact .inr ⟨accepts, by rw [failed]⟩

@[simp] theorem store_get? (entry : RangeOwnership) (c : ShardOwnershipCatalog) (k : CollectionId ×ₗ Nat) :
    (store entry c).ranges.get? k = if k = entry.key then some entry else c.ranges.get? k :=
  get?_insert _ _ _ _

@[simp] theorem store_mode (entry : RangeOwnership) (c : ShardOwnershipCatalog) (collection : CollectionId) :
    (store entry c).collections.get? collection =
      if collection = entry.collection then some entry.shardKeyMode else c.collections.get? collection :=
  get?_insert _ _ _ _

/-- What the leader's catalog says after it has taken the updates in `accepted`. -/
structure Leads (accepted : List RangeOwnership) (c : ShardOwnershipCatalog) : Prop where
  roles : ∀ u ∈ accepted, u.validateReplicaRoles = .ok ()
  modes : ∀ u ∈ accepted, c.collections.get? u.collection = some u.shardKeyMode
  held : ∀ u ∈ accepted, ∃ latest, c.ranges.get? u.key = some latest ∧ (u.version < latest.version ∨ u = latest)
  known : ∀ k u, c.ranges.get? k = some u → u ∈ accepted ∧ u.key = k
  apart : ∀ k u j v, c.ranges.get? k = some u → c.ranges.get? j = some v → u.collection = v.collection →
    u.rangeId ≠ v.rangeId → u.bounds.overlaps v.bounds = false

theorem Leads.store {accepted : List RangeOwnership} (leads : Leads accepted c) (accepts : c.Accepts entry) :
    Leads (accepted ++ [entry]) (store entry c) := by
  have siblings (k : CollectionId ×ₗ Nat) (v : RangeOwnership) (held : c.ranges.get? k = some v)
      (same : v.collection = entry.collection) (other : v.rangeId ≠ entry.rangeId) :
      v.bounds.overlaps entry.bounds = false := by
    apply accepts.siblings k v held _ other
    rw [← same, ← (leads.known k v held).2]
    rfl
  refine ⟨?_, ?_, ?_, ?_, ?_⟩
  · intro u member
    rcases mem_append.mp member with before | new
    · exact leads.roles u before
    · rw [mem_singleton.mp new]
      exact accepts.roles
  · intro u member
    rw [store_mode]
    split_ifs with same
    · rcases mem_append.mp member with before | new
      · have declared := leads.modes u before
        rw [same] at declared
        rw [accepts.mode _ declared]
      · rw [mem_singleton.mp new]
    · rcases mem_append.mp member with before | new
      · exact leads.modes u before
      · exact absurd (congrArg _ (mem_singleton.mp new)) same
  · intro u member
    rw [store_get?]
    split_ifs with same
    · refine ⟨entry, rfl, ?_⟩
      rcases mem_append.mp member with before | new
      · obtain ⟨latest, current, older⟩ := leads.held u before
        rw [same] at current
        have newer := accepts.newer latest current
        rcases older with less | rfl
        · exact .inl (less.trans newer)
        · exact .inl newer
      · exact .inr (mem_singleton.mp new)
    · rcases mem_append.mp member with before | new
      · exact leads.held u before
      · exact absurd (congrArg _ (mem_singleton.mp new)) same
  · intro k u current
    rw [store_get?] at current
    split_ifs at current with same
    · obtain rfl := Option.some.inj current
      exact ⟨mem_append_right _ (mem_singleton_self _), same.symm⟩
    · obtain ⟨member, keyed⟩ := leads.known k u current
      exact ⟨mem_append_left _ member, keyed⟩
  · intro k u j v first second collection other
    rw [store_get?] at first second
    split_ifs at first second
    · obtain rfl := Option.some.inj first
      obtain rfl := Option.some.inj second
      exact absurd rfl other
    · obtain rfl := Option.some.inj first
      rw [RangeBounds.overlaps_comm]
      exact siblings j v second collection.symm other.symm
    · obtain rfl := Option.some.inj second
      exact siblings k u first collection other
    · exact leads.apart k u j v first second collection other

theorem Leads.acceptsAll {accepted updates : List RangeOwnership}
    (leads : Leads accepted c) (all : AcceptsAll c updates) :
    Leads (accepted ++ updates) (applyAll c updates) := by
  induction updates generalizing accepted c with
  | nil => simpa [applyAll] using leads
  | cons entry rest ih =>
    obtain ⟨⟨outcome, ok⟩, later⟩ := all
    have accepts := accepts_of_ok ok
    obtain ⟨outcome, applied⟩ := applyUpdate_accepted accepts
    have state : (applyUpdate entry c).2 = ShardOwnershipCatalog.store entry c := by rw [applied]
    rw [state] at later
    have rest := ih (leads.store accepts) later
    simpa [applyAll, state, append_assoc] using rest

theorem Leads.final {updates : List RangeOwnership} (leads : Leads updates c)
    {f : RangeOwnership} : Final updates f ↔ c.ranges.get? f.key = some f := by
  constructor
  · rintro ⟨member, greatest⟩
    obtain ⟨latest, current, less | rfl⟩ := leads.held f member
    · obtain ⟨known, keyed⟩ := leads.known _ _ current
      exact absurd (greatest latest known keyed) (not_le.mpr less)
    · exact current
  · intro current
    refine ⟨(leads.known _ _ current).1, fun u member same => ?_⟩
    obtain ⟨latest, held, older⟩ := leads.held u member
    rw [same, current] at held
    obtain rfl := Option.some.inj held
    rcases older with less | rfl
    · exact less.le
    · exact le_refl _

def FinalsClear (updates : List RangeOwnership) : Prop :=
  ∀ u ∈ updates, ∀ f, Final updates f → u.collection = f.collection → u.rangeId ≠ f.rangeId →
    u.bounds.overlaps f.bounds = false

/-- A replica that has been sent `delivered` holds updates of the leader only, and the final ones
    among those it has been sent. -/
structure Follows (updates delivered : List RangeOwnership) (c : ShardOwnershipCatalog) : Prop where
  known : ∀ k u, c.ranges.get? k = some u → u ∈ updates ∧ u.key = k
  modes : ∀ collection mode, c.collections.get? collection = some mode →
    ∃ u ∈ updates, u.collection = collection ∧ u.shardKeyMode = mode
  finals : ∀ f, Final updates f → f ∈ delivered → c.ranges.get? f.key = some f

section

variable {updates : List RangeOwnership} {leader : ShardOwnershipCatalog}

theorem Leads.version_lt (leads : Leads updates leader) {f u : RangeOwnership} (final : Final updates f)
    (member : u ∈ updates) (same : u.key = f.key) : u.version < f.version ∨ u = f := by
  obtain ⟨latest, held, older⟩ := leads.held u member
  rw [same, leads.final.mp final] at held
  obtain rfl := Option.some.inj held
  exact older

variable {delivered : List RangeOwnership} {c : ShardOwnershipCatalog}

section

variable (leads : Leads updates leader) (clear : FinalsClear updates)
include leads clear

theorem Follows.accepts_final (follows : Follows updates delivered c)
    {f : RangeOwnership} (final : Final updates f) (missing : c.ranges.get? f.key ≠ some f) :
    c.Accepts f where
  roles := leads.roles f final.1
  mode := by
    intro declared held
    obtain ⟨u, member, collection, rfl⟩ := follows.modes _ _ held
    have first := leads.modes u member
    rw [collection, leads.modes f final.1] at first
    exact (Option.some.inj first).symm
  newer := by
    intro current held
    obtain ⟨member, keyed⟩ := follows.known _ _ held
    rcases leads.version_lt final member keyed with less | rfl
    · exact less
    · exact absurd held missing
  siblings := by
    intro k range held same other
    obtain ⟨member, keyed⟩ := follows.known _ _ held
    apply clear range member f final _ other
    rw [← same, ← keyed]
    rfl

theorem Follows.step (follows : Follows updates delivered c) {entry : RangeOwnership} (member : entry ∈ updates) :
    Follows updates (delivered ++ [entry]) (applyUpdate entry c).2 := by
  rcases applyUpdate_state c entry with ⟨accepts, state⟩ | ⟨rejects, state⟩
  · rw [state]
    refine ⟨fun k u held => ?_, fun collection mode held => ?_, fun f final sent => ?_⟩
    · rw [store_get?] at held
      split_ifs at held with same
      · obtain rfl := Option.some.inj held
        exact ⟨member, same.symm⟩
      · exact follows.known k u held
    · rw [store_mode] at held
      split_ifs at held with same
      · exact ⟨entry, member, same.symm, Option.some.inj held⟩
      · exact follows.modes collection mode held
    · rw [store_get?]
      split_ifs with same
      · rcases leads.version_lt final member same.symm with less | rfl
        · rcases mem_append.mp sent with before | now
          · have newer := accepts.newer f (same ▸ follows.finals f final before)
            exact absurd newer (not_lt.mpr less.le)
          · rw [mem_singleton.mp now]
        · rfl
      · rcases mem_append.mp sent with before | now
        · exact follows.finals f final before
        · exact absurd (congrArg _ (mem_singleton.mp now)) same
  · rw [state]
    refine ⟨follows.known, follows.modes, fun f final sent => ?_⟩
    rcases mem_append.mp sent with before | now
    · exact follows.finals f final before
    · rw [mem_singleton.mp now] at final ⊢
      by_contra missing
      exact rejects (follows.accepts_final leads clear final missing)

theorem Follows.applyAll {rest : List RangeOwnership}
    (follows : Follows updates delivered c) (from_leader : ∀ entry ∈ rest, entry ∈ updates) :
    Follows updates (delivered ++ rest) (ShardOwnershipCatalog.applyAll c rest) := by
  induction rest generalizing delivered c with
  | nil => simpa [ShardOwnershipCatalog.applyAll] using follows
  | cons entry rest ih =>
    have stepped := follows.step leads clear (from_leader entry mem_cons_self)
    have done := ih stepped fun u later => from_leader u (mem_cons_of_mem _ later)
    simpa [ShardOwnershipCatalog.applyAll, append_assoc] using done

end

end

theorem Leads.init : Leads [] new := by
  constructor <;> simp [new, empty, get?]

theorem applyAll_lacks {f : RangeOwnership} {rest : List RangeOwnership} (unsent : f ∉ rest)
    {c : ShardOwnershipCatalog} (lacks : ∀ k, c.ranges.get? k ≠ some f) (k : CollectionId ×ₗ Nat) :
    (applyAll c rest).ranges.get? k ≠ some f := by
  induction rest generalizing c with
  | nil => exact lacks k
  | cons entry rest ih =>
    have other : entry ≠ f := fun same => unsent (same ▸ mem_cons_self)
    have kept (j : CollectionId ×ₗ Nat) : (applyUpdate entry c).2.ranges.get? j ≠ some f := by
      rcases applyUpdate_state c entry with ⟨-, state⟩ | ⟨-, state⟩
      · rw [state, store_get?]
        split_ifs
        · exact fun same => other (Option.some.inj same)
        · exact lacks j
      · rw [state]
        exact lacks j
    exact ih (fun later => unsent (mem_cons_of_mem _ later)) kept

theorem not_converges_of_overlap {updates : List RangeOwnership} {leader : ShardOwnershipCatalog}
    (leads : Leads updates leader) {u f : RangeOwnership} (member : u ∈ updates) (final : Final updates f)
    (collection : u.collection = f.collection) (other : u.rangeId ≠ f.rangeId)
    (shared : u.bounds.overlaps f.bounds = true) :
    ∃ delivery, Delivers updates delivery ∧ (applyAll new delivery).ranges.get? f.key ≠ some f := by
  refine ⟨u :: f :: updates.filter (· ≠ f), fun entry => ?_, ?_⟩
  · by_cases same : entry = f
    · simp [same, final.1]
    · by_cases first : entry = u <;> simp [same, first, member]
  · have accepts : new.Accepts u := by
      refine ⟨leads.roles u member, ?_, ?_, ?_⟩ <;> simp [new, empty, get?]
    obtain ⟨outcome, stored⟩ := applyUpdate_accepted accepts
    have apart : u ≠ f := fun same => other (congrArg _ same)
    have rejects : ¬ (store u new).Accepts f := by
      intro accepted
      have clear := accepted.siblings u.key u (by simp) collection other
      rw [shared] at clear
      cases clear
    obtain ⟨e, failed⟩ := applyUpdate_rejected rejects
    simp only [applyAll, foldl_cons, stored, failed]
    apply applyAll_lacks
    · simp
    · intro k
      rw [store_get?]
      split_ifs
      · exact fun same => apart (Option.some.inj same)
      · simp [new, empty, get?]

theorem converges_iff_finals_clear {updates : List RangeOwnership} (accepted : AcceptsAll new updates) :
    (∀ delivery, Delivers updates delivery →
      (applyAll new delivery).ranges = (applyAll new updates).ranges) ↔ FinalsClear updates := by
  have leads : Leads updates (applyAll new updates) := by simpa using Leads.init.acceptsAll accepted
  constructor
  · intro converges u member f final collection other
    by_contra shared
    obtain ⟨delivery, delivers, lacks⟩ := not_converges_of_overlap leads member final collection other
      (Bool.eq_true_of_not_eq_false shared)
    rw [converges delivery delivers] at lacks
    exact lacks (leads.final.mp final)
  · intro clear delivery delivers
    have start : Follows updates [] new := by
      constructor <;> simp [new, empty, get?]
    have follows : Follows updates delivery (applyAll new delivery) := by
      simpa using start.applyAll leads clear fun entry sent => (delivers entry).mp sent
    apply ext_get?
    intro k
    cases held : (applyAll new updates).ranges.get? k with
    | some f =>
      obtain ⟨member, rfl⟩ := leads.known k f held
      exact follows.finals f (leads.final.mpr held) ((delivers f).mpr member)
    | none =>
      cases replica : (applyAll new delivery).ranges.get? k with
      | none => rfl
      | some u =>
        obtain ⟨member, rfl⟩ := follows.known k u replica
        obtain ⟨latest, current, -⟩ := leads.held u member
        rw [held] at current
        cases current

/-- A whole-keyspace range that is cut down to its lower half, and the range that gets the upper
    half. -/
def whole : RangeOwnership := .establish "c" 1 .ordered .full "n1" [] ⟨1, []⟩

def lower : RangeOwnership := whole.withBounds ⟨.min, .key [7], by decide⟩

def upper : RangeOwnership := .establish "c" 2 .ordered ⟨.key [7], .max, by decide⟩ "n2" [] ⟨1, []⟩

theorem split_update_lost :
    AcceptsAll new [whole, lower, upper] ∧ Delivers [whole, lower, upper] [whole, upper, lower] ∧
      (applyAll new [whole, lower, upper]).range "c" 2 = some upper ∧
      (applyAll new [whole, upper, lower]).range "c" 2 = none := by
  refine ⟨⟨⟨.created, by rfl⟩, ⟨.updated, by rfl⟩, ⟨.created, by rfl⟩, trivial⟩, fun entry => ?_, by rfl, by rfl⟩
  simp only [mem_cons, not_mem_nil, or_false]
  tauto

def moved : RangeOwnership := upper.transferTo "n3" ["n2"]

def lowerFirst : RangeOwnership := .establish "c" 1 .ordered ⟨.min, .key [7], by decide⟩ "n1" [] ⟨1, []⟩

theorem converges_iff_finals_clear_moved : AcceptsAll new [lowerFirst, upper, moved] ∧
      (applyAll new [moved, upper, moved, lowerFirst]).ranges = (applyAll new [lowerFirst, upper, moved]).ranges := by
  have accepted : AcceptsAll new [lowerFirst, upper, moved] :=
    ⟨⟨.created, by rfl⟩, ⟨.created, by rfl⟩, ⟨.updated, by rfl⟩, trivial⟩
  refine ⟨accepted, (converges_iff_finals_clear accepted).mpr ?_ _ fun entry => ?_⟩
  · rintro u member f ⟨final, -⟩ - other
    simp only [mem_cons, not_mem_nil, or_false] at member final
    rcases member with rfl | rfl | rfl <;> rcases final with rfl | rfl | rfl <;>
      first | rfl | exact absurd rfl other
  · simp only [mem_cons, not_mem_nil, or_false]
    tauto

end ShardOwnershipCatalog

end RedDB.Cluster
