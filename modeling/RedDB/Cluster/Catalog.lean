import RedDB.Cluster.Bounds
import RedDB.Library.Program
import RedDB.Library.SortedMap

namespace RedDB.Cluster

open Library Program

inductive ShardKeyMode
  | hash
  | ordered
  deriving DecidableEq

structure PlacementMetadata where
  replicationFactor : Nat
  attributes : List (String × String)
  deriving DecidableEq

/-- One owned range. The version advances on every accepted update, the epoch when write authority
    moves. -/
structure RangeOwnership where
  collection : CollectionId
  collectionGroup : CollectionGroupId
  placementAuthority : String
  rangeId : Nat
  shardKeyMode : ShardKeyMode
  bounds : RangeBounds
  owner : NodeIdentity
  replicas : List NodeIdentity
  compressedArchiveReplicas : List NodeIdentity
  epoch : Nat
  version : Nat
  placement : PlacementMetadata
  deriving DecidableEq

inductive UpdateOutcome
  | created
  | updated
  deriving DecidableEq

inductive CatalogError
  | staleVersion (collection : CollectionId) (rangeId current attempted : Nat)
  | shardKeyModeMismatch (collection : CollectionId) (declared attempted : ShardKeyMode)
  | overlappingRange (collection : CollectionId) (existing attempted : Nat)
  | invalidReplicaRoles (collection : CollectionId) (rangeId : Nat)
  deriving DecidableEq

namespace RangeOwnership

def establish (collection : CollectionId) (rangeId : Nat) (shardKeyMode : ShardKeyMode)
    (bounds : RangeBounds) (owner : NodeIdentity) (replicas : List NodeIdentity)
    (placement : PlacementMetadata) : RangeOwnership :=
  { collection, collectionGroup := collection, placementAuthority := "global-placement-authority"
    rangeId, shardKeyMode, bounds, owner, replicas, compressedArchiveReplicas := []
    epoch := 1, version := 1, placement }

section

variable (entry : RangeOwnership)

def transferTo (newOwner : NodeIdentity) (newReplicas : List NodeIdentity) :
    RangeOwnership :=
  { entry with
    owner := newOwner, replicas := newReplicas, epoch := entry.epoch + 1, version := entry.version + 1 }

def withBounds (bounds : RangeBounds) : RangeOwnership := { entry with bounds, version := entry.version + 1 }

def key : CollectionId ×ₗ Nat := toLex (entry.collection, entry.rangeId)

end

def admitRoles (entry : RangeOwnership) (seen : List NodeIdentity) :
    List NodeIdentity → Except CatalogError (List NodeIdentity)
  | [] => .ok seen
  | replica :: rest =>
    if replica = entry.owner ∨ replica ∈ seen then
      .error (.invalidReplicaRoles entry.collection entry.rangeId)
    else admitRoles entry (replica :: seen) rest

def validateReplicaRoles (entry : RangeOwnership) : Except CatalogError Unit := do
  let seen ← admitRoles entry [] entry.replicas
  let _ ← admitRoles entry seen entry.compressedArchiveReplicas
  .ok ()

end RangeOwnership

structure ShardOwnershipCatalog where
  collections : SortedMap CollectionId ShardKeyMode
  ranges : SortedMap (CollectionId ×ₗ Nat) RangeOwnership

namespace ShardOwnershipCatalog

def new : ShardOwnershipCatalog := ⟨.empty, .empty⟩

def shardKeyMode (c : ShardOwnershipCatalog) (collection : CollectionId) : Option ShardKeyMode :=
  c.collections.get? collection

def declareCollection (collection : CollectionId) (mode : ShardKeyMode) :
    Program ShardOwnershipCatalog CatalogError Unit := do
  let c ← read
  match c.collections.get? collection with
  | some declared =>
    if declared ≠ mode then fail (.shardKeyModeMismatch collection declared mode)
    else Program.modify fun c => { c with collections := c.collections.insert collection mode }
  | none => Program.modify fun c => { c with collections := c.collections.insert collection mode }

section

variable (c : ShardOwnershipCatalog)

def rangesFor (collection : CollectionId) : List RangeOwnership :=
  (c.ranges.entries.filter fun e => decide ((ofLex e.1).1 = collection)).map Prod.snd

variable (entry : RangeOwnership)

def overlappingSibling : Option Nat :=
  ((c.rangesFor entry.collection).find? fun range =>
    decide (range.rangeId ≠ entry.rangeId) && range.bounds.overlaps entry.bounds).map
      RangeOwnership.rangeId

def checkMode : Except CatalogError Unit :=
  match c.collections.get? entry.collection with
  | some declared =>
    if declared ≠ entry.shardKeyMode then
      .error (.shardKeyModeMismatch entry.collection declared entry.shardKeyMode)
    else .ok ()
  | none => .ok ()

def checkSiblings : Except CatalogError Unit :=
  match c.overlappingSibling entry with
  | some existing => .error (.overlappingRange entry.collection existing entry.rangeId)
  | none => .ok ()

end

variable (entry : RangeOwnership)

def store (c : ShardOwnershipCatalog) : ShardOwnershipCatalog :=
  { collections := c.collections.insert entry.collection entry.shardKeyMode
    ranges := c.ranges.insert entry.key entry }

def applyUpdate : Program ShardOwnershipCatalog CatalogError UpdateOutcome := do
  lift entry.validateReplicaRoles
  let c ← read
  lift (c.checkMode entry)
  match c.ranges.get? entry.key with
  | some current =>
    if entry.version ≤ current.version then
      fail (.staleVersion entry.collection entry.rangeId current.version entry.version)
    else
      lift (c.checkSiblings entry)
      Program.modify (store entry)
      pure .updated
  | none =>
    lift (c.checkSiblings entry)
    Program.modify (store entry)
    pure .created

section

variable (c : ShardOwnershipCatalog) (collection : CollectionId)

def range (rangeId : Nat) : Option RangeOwnership := c.ranges.get? (toLex (collection, rangeId))

def route (key : Key) : Option RangeOwnership := (c.rangesFor collection).find? fun range => range.bounds.contains key

end

end ShardOwnershipCatalog

end RedDB.Cluster
