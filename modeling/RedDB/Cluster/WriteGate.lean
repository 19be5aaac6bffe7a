import RedDB.Cluster.Convergence

namespace RedDB.Cluster

open Library

def productionHashSlotCount : Nat := 16384

/-- One bucket of the slot map; only `HashSlot::new` and the hash below build one. -/
abbrev HashSlot := Fin productionHashSlotCount

def HashSlot.rangeKey (slot : HashSlot) : Key := [⟨slot / 256 % 256, by omega⟩, ⟨slot % 256, by omega⟩]

def fromBigEndian (bytes : List (Fin 256)) : Nat := bytes.foldl (fun value byte => value * 256 + byte) 0

inductive RangeRole
  | owner
  | replica
  | archiveReplica
  | noCopy
  deriving DecidableEq

def RangeRole.mayWritePublic : RangeRole → Bool
  | .owner => true
  | _ => false

def RangeOwnership.roleOf (range : RangeOwnership) (node : NodeIdentity) : RangeRole :=
  if range.owner = node then .owner
  else if range.replicas.any (· = node) then .replica
  else if range.compressedArchiveReplicas.any (· = node) then .archiveReplica
  else .noCopy

theorem RangeOwnership.mayWritePublic_roleOf {range : RangeOwnership} {node : NodeIdentity} :
    (range.roleOf node).mayWritePublic = true ↔ range.owner = node := by
  unfold roleOf
  split_ifs <;> simp_all [RangeRole.mayWritePublic]

inductive RangeWriteReject
  | noRange (collection : CollectionId)
  | notOwner (collection : CollectionId) (rangeId : Nat) (role : RangeRole) (owner : NodeIdentity)
  | staleEpoch (collection : CollectionId) (rangeId expected current : Nat)
  deriving DecidableEq

namespace ShardOwnershipCatalog

section

-- `blake3::hash` is a dependency of the source; no property of it is assumed.
variable (blake3 : Key → Vector (Fin 256) 32)

section

variable (c : ShardOwnershipCatalog) (shardKey : Key)

def hashShardKeyToSlot : HashSlot :=
  ⟨fromBigEndian ((blake3 shardKey).toList.take 8) % productionHashSlotCount, Nat.mod_lt _ (by decide)⟩

def hashShardKeyToRangeKey : Key := (hashShardKeyToSlot blake3 shardKey).rangeKey

def rangeKey (mode : ShardKeyMode) (shardKey : Key) : Key :=
  match mode with
  | .ordered => shardKey
  | .hash => hashShardKeyToRangeKey blake3 shardKey

def routeShardKey (collection : CollectionId) (shardKey : Key) :
    Option RangeOwnership := do
  let mode ← c.shardKeyMode collection
  c.route collection (rangeKey blake3 mode shardKey)

def admitPublicWrite (node : NodeIdentity) (collection : CollectionId)
    (key : Key) (expectedEpoch : Nat) : Except RangeWriteReject RangeOwnership :=
  match c.routeShardKey blake3 collection key with
  | none => .error (.noRange collection)
  | some range =>
    if (range.roleOf node).mayWritePublic = false then
      .error (.notOwner collection range.rangeId (range.roleOf node) range.owner)
    else if expectedEpoch ≠ range.epoch then
      .error (.staleEpoch collection range.rangeId expectedEpoch range.epoch)
    else .ok range

end

theorem admitPublicWrite_ok {c : ShardOwnershipCatalog} {node : NodeIdentity} {collection : CollectionId}
    {key : Key} {expectedEpoch : Nat} {range : RangeOwnership}
    (admitted : c.admitPublicWrite blake3 node collection key expectedEpoch = .ok range) :
    c.routeShardKey blake3 collection key = some range ∧ range.owner = node ∧ range.epoch = expectedEpoch := by
  unfold admitPublicWrite at admitted
  split at admitted
  · cases admitted
  · next found routed =>
    split_ifs at admitted with role epoch
    obtain rfl := Except.ok.inj admitted
    refine ⟨routed, RangeOwnership.mayWritePublic_roleOf.mp ?_, ?_⟩
    · simpa using role
    · simpa using Eq.symm (not_not.mp epoch)

end

variable {c : ShardOwnershipCatalog} {collection : CollectionId} {range : RangeOwnership}

theorem mem_rangesFor : range ∈ c.rangesFor collection ↔
      ∃ k, c.ranges.get? k = some range ∧ (ofLex k).1 = collection := by
  simp only [rangesFor, List.mem_map, List.mem_filter, decide_eq_true_eq, Prod.exists, SortedMap.mem_entries]
  constructor
  · rintro ⟨k, held, ⟨stored, same⟩, rfl⟩
    exact ⟨k, stored, same⟩
  · rintro ⟨k, stored, same⟩
    exact ⟨k, range, ⟨stored, same⟩, rfl⟩

variable {key : Key}

theorem route_sound (routed : c.route collection key = some range) :
    range ∈ c.rangesFor collection ∧ range.bounds.contains key = true := by
  unfold route at routed
  have contains := List.find?_some routed
  exact ⟨List.mem_of_find?_eq_some routed, contains⟩

variable {accepted : List RangeOwnership}

theorem leads_applyAll (leads : Leads accepted c) (updates : List RangeOwnership) :
    ∃ accepted, Leads accepted (applyAll c updates) := by
  induction updates generalizing accepted c with
  | nil => exact ⟨accepted, leads⟩
  | cons entry rest ih =>
    rcases applyUpdate_state c entry with ⟨accepts, state⟩ | ⟨-, state⟩
    · have stepped := leads.store accepts
      rw [← state] at stepped
      exact ih stepped
    · rw [← state] at leads
      exact ih leads

theorem Leads.unique (leads : Leads accepted c) {other : RangeOwnership}
    (first : range ∈ c.rangesFor collection) (second : other ∈ c.rangesFor collection)
    (contains : range.bounds.contains key = true) (containsOther : other.bounds.contains key = true) :
    range = other := by
  obtain ⟨k, held, same⟩ := mem_rangesFor.mp first
  obtain ⟨j, heldOther, sameOther⟩ := mem_rangesFor.mp second
  obtain ⟨-, rfl⟩ := leads.known k range held
  obtain ⟨-, rfl⟩ := leads.known j other heldOther
  have collections : range.collection = other.collection := same.trans sameOther.symm
  by_cases ids : range.rangeId = other.rangeId
  · have keys : range.key = other.key := by
      unfold RangeOwnership.key
      rw [collections, ids]
    rw [keys, heldOther] at held
    exact (Option.some.inj held).symm
  · have clear := leads.apart _ _ _ _ held heldOther collections ids
    rw [RangeBounds.overlaps_of_contains contains containsOther] at clear
    cases clear

theorem Leads.route_eq_some (leads : Leads accepted c) : c.route collection key = some range ↔
      range ∈ c.rangesFor collection ∧ range.bounds.contains key = true := by
  constructor
  · exact route_sound
  · rintro ⟨member, contains⟩
    cases routed : c.route collection key with
    | none =>
      have missed := List.find?_eq_none.mp routed range member
      exact absurd contains missed
    | some found =>
      obtain ⟨foundMember, foundContains⟩ := route_sound routed
      rw [leads.unique foundMember member foundContains contains]

structure Exclusive (blake3 : Key → Vector (Fin 256) 32) (c : ShardOwnershipCatalog) : Prop where
  apart : ∀ collection i j a b, c.range collection i = some a → c.range collection j = some b → i ≠ j →
    a.bounds.overlaps b.bounds = false
  advances : ∀ entry outcome, (applyUpdate entry c).1 = .ok outcome →
    (applyUpdate entry c).2.range entry.collection entry.rangeId = some entry ∧
      ∀ current, c.range entry.collection entry.rangeId = some current → current.version < entry.version
  others : ∀ entry collection rangeId, (collection, rangeId) ≠ (entry.collection, entry.rangeId) →
    (applyUpdate entry c).2.range collection rangeId = c.range collection rangeId
  unchanged : ∀ entry e, (applyUpdate entry c).1 = .error e → (applyUpdate entry c).2 = c
  routed : ∀ collection key range, c.route collection key = some range ↔
    range ∈ c.rangesFor collection ∧ range.bounds.contains key = true
  writer : ∀ collection key node epoch range other epochOther rangeOther,
    c.admitPublicWrite blake3 node collection key epoch = .ok range →
      c.admitPublicWrite blake3 other collection key epochOther = .ok rangeOther → node = other

theorem ownership_exclusive (blake3 : Key → Vector (Fin 256) 32) (updates : List RangeOwnership) :
    Exclusive blake3 (applyAll new updates) := by
  obtain ⟨accepted, leads⟩ := leads_applyAll Leads.init updates
  refine ⟨?_, ?_, ?_, ?_, ?_, ?_⟩
  · intro collection i j a b held heldOther other
    have key := toLex.injective (leads.known _ a held).2
    have keyOther := toLex.injective (leads.known _ b heldOther).2
    obtain ⟨rfl, rfl⟩ := Prod.mk.inj key
    obtain ⟨collections, rfl⟩ := Prod.mk.inj keyOther
    exact leads.apart _ _ _ _ held heldOther collections.symm other
  · intro entry outcome ok
    have accepts := accepts_of_ok ok
    obtain ⟨_, applied⟩ := applyUpdate_accepted accepts
    refine ⟨?_, accepts.newer⟩
    rw [applied]
    simp [range, RangeOwnership.key]
  · intro entry collection rangeId other
    rcases applyUpdate_state (applyAll new updates) entry with ⟨-, state⟩ | ⟨-, state⟩
    · rw [state]
      have apart : toLex (collection, rangeId) ≠ entry.key := fun same => other (toLex.injective same)
      simp [range, apart]
    · rw [state]
  · intro entry e failed
    rcases applyUpdate_state (applyAll new updates) entry with ⟨accepts, -⟩ | ⟨-, state⟩
    · obtain ⟨_, applied⟩ := applyUpdate_accepted accepts
      rw [applied] at failed
      cases failed
    · exact state
  · intro collection key range
    exact leads.route_eq_some
  · intro collection key node epoch range other epochOther rangeOther admitted admittedOther
    obtain ⟨routed, owner, -⟩ := admitPublicWrite_ok blake3 admitted
    obtain ⟨routedOther, ownerOther, -⟩ := admitPublicWrite_ok blake3 admittedOther
    rw [routed] at routedOther
    obtain rfl := Option.some.inj routedOther
    exact owner.symm.trans ownerOther

end ShardOwnershipCatalog

end RedDB.Cluster
