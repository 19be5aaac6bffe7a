import RedDB.Library.Runs
import RedDB.Library.SortedMap
import RedDB.Replication.LogicalWal

namespace RedDB.Replication

open List Library SortedMap

/-- `u64::saturating_add` -/
def saturatingAdd (a b : Nat) : Nat := min (a + b) (2 ^ 64 - 1)

structure WalBuffer where
  records : List (Nat × Bytes)
  currentLsn : Nat
  deriving DecidableEq, Repr

namespace WalBuffer

def new : WalBuffer := ⟨[], 0⟩

section

variable (buffer : WalBuffer)

def append (lsn : Nat) (data : Bytes) : WalBuffer where
  records := buffer.records ++ [(lsn, data)]
  currentLsn := max buffer.currentLsn lsn

def pruneThrough (uptoLsn : Nat) : WalBuffer :=
  { buffer with records := buffer.records.dropWhile fun record => decide (record.1 ≤ uptoLsn) }

def oldestLsn : Option Nat := buffer.records.head?.map Prod.fst

end

end WalBuffer

inductive ReplicationSlotInvalidationCause
  | walRemoved
  | horizon
  | idleTimeout
  deriving DecidableEq, Repr

structure ReplicationSlot where
  replicaId : String
  restartLsn : Nat
  confirmedWriteLsn : Nat
  confirmedFlushLsn : Nat
  confirmedApplyLsn : Nat
  lastSeenAtUnixMs : Nat
  invalidationReason : Option ReplicationSlotInvalidationCause
  invalidatedAtUnixMs : Option Nat
  deriving DecidableEq, Repr

namespace ReplicationSlot

def new (replicaId : String) (restartLsn : Nat) : ReplicationSlot where
  replicaId := replicaId
  restartLsn := restartLsn
  confirmedWriteLsn := restartLsn
  confirmedFlushLsn := restartLsn
  confirmedApplyLsn := restartLsn
  lastSeenAtUnixMs := 0
  invalidationReason := none
  invalidatedAtUnixMs := none

section

variable (slot : ReplicationSlot)

def confirmedLsn : Nat :=
  max (max slot.confirmedWriteLsn slot.confirmedFlushLsn) slot.confirmedApplyLsn

def seen (nowMs : Nat) : ReplicationSlot := { slot with lastSeenAtUnixMs := nowMs }

def invalidated (reason : ReplicationSlotInvalidationCause) (nowMs : Nat) : ReplicationSlot :=
  { slot with invalidationReason := some reason, invalidatedAtUnixMs := some nowMs }

/-- The update of `advance_slot`; an invalidated slot stays as it is. -/
def advance (confirmedLsn restartLsn nowMs : Nat) : ReplicationSlot :=
  if slot.invalidationReason.isSome then slot
  else
    let restart := max slot.restartLsn restartLsn
    { slot with
      confirmedWriteLsn := max (max slot.confirmedLsn confirmedLsn) restartLsn
      restartLsn := restart
      confirmedFlushLsn := max slot.confirmedFlushLsn restart
      confirmedApplyLsn := max slot.confirmedApplyLsn restart
      lastSeenAtUnixMs := nowMs }

def touch (nowMs : Nat) : ReplicationSlot :=
  if slot.invalidationReason.isNone then slot.seen nowMs else slot

variable (currentLsn maxLagLsn idleTimeoutMs nowMs : Nat)

/-- Why `enforce_retention_limits` gives the slot up. -/
def retentionReason :
    Option ReplicationSlotInvalidationCause :=
  if slot.invalidationReason.isSome then none
  else if 0 < maxLagLsn ∧ maxLagLsn < currentLsn - slot.restartLsn then some .horizon
  else if 0 < idleTimeoutMs ∧ idleTimeoutMs < nowMs - slot.lastSeenAtUnixMs then some .idleTimeout
  else none

def enforce : ReplicationSlot :=
  match slot.retentionReason currentLsn maxLagLsn idleTimeoutMs nowMs with
  | some reason => slot.invalidated reason nowMs
  | none => slot

end

section

variable (slot : ReplicationSlot)
include slot

@[simp] theorem seen_replicaId (nowMs : Nat) : (slot.seen nowMs).replicaId = slot.replicaId := rfl

@[simp] theorem seen_restartLsn (nowMs : Nat) : (slot.seen nowMs).restartLsn = slot.restartLsn := rfl

variable (reason : ReplicationSlotInvalidationCause)

@[simp] theorem invalidated_replicaId
    (nowMs : Nat) : (slot.invalidated reason nowMs).replicaId = slot.replicaId := rfl

@[simp] theorem invalidated_restartLsn
    (nowMs : Nat) : (slot.invalidated reason nowMs).restartLsn = slot.restartLsn := rfl

@[simp] theorem advance_replicaId (confirmedLsn restartLsn nowMs : Nat) :
    (slot.advance confirmedLsn restartLsn nowMs).replicaId = slot.replicaId := by
  unfold advance
  split_ifs <;> rfl

@[simp] theorem touch_replicaId (nowMs : Nat) : (slot.touch nowMs).replicaId = slot.replicaId := by
  unfold touch
  split_ifs <;> rfl

@[simp] theorem touch_restartLsn (nowMs : Nat) : (slot.touch nowMs).restartLsn = slot.restartLsn := by
  unfold touch
  split_ifs <;> rfl

section

variable (currentLsn maxLagLsn idleTimeoutMs nowMs : Nat)

@[simp] theorem enforce_replicaId :
    (slot.enforce currentLsn maxLagLsn idleTimeoutMs nowMs).replicaId = slot.replicaId := by
  unfold enforce
  split <;> rfl

@[simp] theorem enforce_restartLsn :
    (slot.enforce currentLsn maxLagLsn idleTimeoutMs nowMs).restartLsn = slot.restartLsn := by
  unfold enforce
  split <;> rfl

end

theorem advance_restartLsn (confirmedLsn restartLsn nowMs : Nat) :
    (slot.advance confirmedLsn restartLsn nowMs).restartLsn = slot.restartLsn ∨
      (slot.advance confirmedLsn restartLsn nowMs).restartLsn = restartLsn := by
  unfold advance
  split_ifs
  · exact .inl rfl
  · exact max_choice _ _

end

end ReplicationSlot

structure SlotTable where
  slots : SortedMap String ReplicationSlot
  keyed : ∀ {id : String} {slot : ReplicationSlot}, slots.get? id = some slot → slot.replicaId = id

namespace SlotTable

def empty : SlotTable := ⟨.empty, by simp [SortedMap.get?, SortedMap.empty]⟩

section

variable (table : SlotTable)

def get? (id : String) : Option ReplicationSlot := table.slots.get? id

def put (slot : ReplicationSlot) : SlotTable where
  slots := table.slots.insert slot.replicaId slot
  keyed {id other} found := by
    rw [SortedMap.get?_insert] at found
    split_ifs at found with same
    · rw [same, Option.some.inj found]
    · exact table.keyed found

def map (f : ReplicationSlot → ReplicationSlot) (same : ∀ slot, (f slot).replicaId = slot.replicaId) : SlotTable where
  slots := table.slots.mapValues f
  keyed {id other} found := by
    rw [SortedMap.get?_mapValues, Option.map_eq_some_iff] at found
    obtain ⟨slot, stored, rfl⟩ := found
    rw [same, table.keyed stored]

end

variable (table : SlotTable)

theorem get?_put (slot : ReplicationSlot) (id : String) :
    (table.put slot).get? id = if id = slot.replicaId then some slot else table.get? id :=
  SortedMap.get?_insert _ _ _ _

theorem get?_map (f : ReplicationSlot → ReplicationSlot)
    (same : ∀ slot, (f slot).replicaId = slot.replicaId) (id : String) :
    (table.map f same).get? id = (table.get? id).map f := SortedMap.get?_mapValues _ _ _

theorem values_find (id : String) :
    (table.slots.values.find? fun slot => decide (slot.replicaId = id)) = table.get? id := by
  have names : ∀ entry ∈ table.slots.entries, entry.2.replicaId = entry.1 :=
    fun entry member => table.keyed (mem_entries.mp member)
  rw [values, find?_map, get?, SortedMap.get?]
  congr 1
  generalize table.slots.entries = entries at names
  induction entries with
  | nil => rfl
  | cons entry rest ih =>
    have here := names entry mem_cons_self
    have later := ih fun other member => names other (mem_cons_of_mem _ member)
    have first : ((fun slot => decide (slot.replicaId = id)) ∘ Prod.snd) entry = decide (entry.1 = id) := by
      rw [Function.comp_apply, here]
    rw [find?_cons, find?_cons, first, later]

end SlotTable

structure ReplicaState where
  id : String
  lastAckedLsn : Nat
  lastSentLsn : Nat
  lastDurableLsn : Nat
  applyErrorCount : Nat
  divergenceCount : Nat
  connectedAtUnixMs : Nat
  lastSeenAtUnixMs : Nat
  region : Option String
  deriving DecidableEq, Repr

/-- `commit_waiter.durable_lsn`: what each replica reported as durable. -/
abbrev DurableLsns := SortedMap String Nat

namespace DurableLsns

section

variable (durable : DurableLsns)

def recordReplicaAck (replicaId : String) (lsn : Nat) : DurableLsns :=
  let entry := (durable.get? replicaId).getD 0
  durable.insert replicaId (if entry < lsn then lsn else entry)

def dropReplica (replicaId : String) : DurableLsns := durable.filterKeys (· ≠ replicaId)

def countAtOrPast (targetLsn : Nat) : Nat := (durable.values.filter fun lsn => decide (targetLsn ≤ lsn)).length

/-- The `required`-th highest durable position. -/
def commitWatermark (required : Nat) : Nat :=
  if required = 0 ∨ durable.values.length < required then 0
  else ((durable.values.insertionSort (· ≥ ·))[required - 1]?).getD 0

end

end DurableLsns

inductive AwaitOutcome
  | reached (observed : Nat)
  | timedOut (observed required : Nat)
  | notRequired
  deriving DecidableEq, Repr

/-- What one round of the loop of `await_acks` answers; `none` waits for the next notification. -/
def DurableLsns.awaitAcks (durable : DurableLsns) (targetLsn required : Nat) (expired : Bool) : Option AwaitOutcome :=
  if required = 0 then some .notRequired
  else if targetLsn ≤ durable.commitWatermark required then some (.reached (durable.countAtOrPast targetLsn))
  else if expired then some (.timedOut (durable.countAtOrPast targetLsn) required)
  else none

inductive ResumeMode
  | partialResync (resumeLsn : Nat)
  | fullRebootstrap (cause : ReplicationSlotInvalidationCause)
  deriving DecidableEq, Repr

structure PrimaryReplication where
  walBuffer : WalBuffer
  replicas : List ReplicaState
  slots : SlotTable
  commitWaiter : DurableLsns
  slotRetentionMaxLagLsn : Nat
  slotIdleTimeoutMs : Nat
  topologyEpoch : Nat
  partialResyncCount : Nat
  fullResyncCount : Nat

namespace PrimaryReplication

def new (slotRetentionMaxLagLsn slotIdleTimeoutMs : Nat) : PrimaryReplication where
  walBuffer := .new
  replicas := []
  slots := .empty
  commitWaiter := .empty
  slotRetentionMaxLagLsn := slotRetentionMaxLagLsn
  slotIdleTimeoutMs := slotIdleTimeoutMs
  topologyEpoch := 0
  partialResyncCount := 0
  fullResyncCount := 0

section

variable (p : PrimaryReplication)

def registered (id : String) : Bool := p.replicas.any fun r => decide (r.id = id)

def bumpTopologyEpoch : PrimaryReplication := { p with topologyEpoch := (p.topologyEpoch + 1) % 2 ^ 64 }

def appendLogicalRecord (lsn : Nat) (encoded : Bytes) : PrimaryReplication :=
  { p with walBuffer := p.walBuffer.append lsn encoded }

end

/-- The entry that `replicas.iter_mut().find(|r| r.id == id)` finds is updated in place. -/
def updateFirst (id : String) (f : ReplicaState → ReplicaState) : List ReplicaState → List ReplicaState
  | [] => []
  | r :: rest => if r.id = id then f r :: rest else r :: updateFirst id f rest

section

variable (p : PrimaryReplication) (id : String)

def updateReplica (f : ReplicaState → ReplicaState) : PrimaryReplication :=
  { p with replicas := updateFirst id f p.replicas }

def ensureSlot (initialLsn nowMs : Nat) : Nat × PrimaryReplication :=
  match p.slots.get? id with
  | some slot => (slot.restartLsn, { p with slots := p.slots.put (slot.seen nowMs) })
  | none => (initialLsn, { p with slots := p.slots.put ((ReplicationSlot.new id initialLsn).seen nowMs) })

def advanceSlot (confirmedLsn restartLsn nowMs : Nat) : PrimaryReplication :=
  let slot := (p.slots.get? id).getD ((ReplicationSlot.new id 0).seen nowMs)
  { p with slots := p.slots.put (slot.advance confirmedLsn restartLsn nowMs) }

def touchSlot (nowMs : Nat) : PrimaryReplication :=
  match p.slots.get? id with
  | some slot => { p with slots := p.slots.put (slot.touch nowMs) }
  | none => p

variable (region : Option String)

def registerReplicaWithRegionAt (initialLsn nowMs : Nat) : PrimaryReplication :=
  let (resumeLsn, q) := p.ensureSlot id initialLsn nowMs
  if q.registered id then
    q.updateReplica id fun r => { r with lastSeenAtUnixMs := nowMs, region := region.or r.region }
  else
    bumpTopologyEpoch { q with
      replicas := q.replicas ++ [{
        id := id
        lastAckedLsn := resumeLsn
        lastSentLsn := resumeLsn
        lastDurableLsn := resumeLsn
        applyErrorCount := 0
        divergenceCount := 0
        connectedAtUnixMs := nowMs
        lastSeenAtUnixMs := nowMs
        region := region }] }

def registerReplicaWithRegion (nowMs : Nat) :
    PrimaryReplication := p.registerReplicaWithRegionAt id region p.walBuffer.currentLsn nowMs

def ensureReplicaRegistered (requestedSinceLsn nowMs : Nat) :
    PrimaryReplication :=
  if p.registered id then p else p.registerReplicaWithRegionAt id none requestedSinceLsn nowMs

def unregisterReplica : PrimaryReplication :=
  let kept := p.replicas.filter fun r => decide (r.id ≠ id)
  if kept.length ≠ p.replicas.length then
    bumpTopologyEpoch { p with replicas := kept, commitWaiter := p.commitWaiter.dropReplica id }
  else { p with replicas := kept }

def ackReplica (lsn nowMs : Nat) : PrimaryReplication :=
  let q := p.updateReplica id fun r =>
    { r with
      lastAckedLsn := max r.lastAckedLsn lsn
      lastDurableLsn := max r.lastDurableLsn lsn
      lastSeenAtUnixMs := nowMs }
  { q with commitWaiter := q.commitWaiter.recordReplicaAck id lsn }

def ackReplicaLsn (appliedLsn durableLsn applyErrorCount divergenceCount
    nowMs : Nat) : PrimaryReplication :=
  let q := (p.advanceSlot id appliedLsn durableLsn nowMs).updateReplica id fun r =>
    { r with
      lastAckedLsn := max r.lastAckedLsn appliedLsn
      lastDurableLsn := max r.lastDurableLsn durableLsn
      applyErrorCount := max r.applyErrorCount applyErrorCount
      divergenceCount := max r.divergenceCount divergenceCount
      lastSeenAtUnixMs := nowMs }
  { q with commitWaiter := q.commitWaiter.recordReplicaAck id durableLsn }

def noteReplicaPull (lastSentLsn nowMs : Nat) : PrimaryReplication :=
  (p.touchSlot id nowMs).updateReplica id fun r =>
    { r with lastSentLsn := max r.lastSentLsn lastSentLsn, lastSeenAtUnixMs := nowMs }

end

section

variable (p : PrimaryReplication)

/-- `metadataDurable` is false while the last write of the slot metadata failed. -/
def retentionFloorLsn (metadataDurable : Bool) : Option Nat :=
  if metadataDurable then
    ((p.slots.slots.values.filter fun slot => slot.invalidationReason.isNone).map ReplicationSlot.restartLsn).min?
  else some 0

def enforceRetentionLimits (nowMs : Nat) : PrimaryReplication :=
  { p with
    slots := p.slots.map
      (fun slot => slot.enforce p.walBuffer.currentLsn p.slotRetentionMaxLagLsn p.slotIdleTimeoutMs nowMs)
      fun slot => slot.enforce_replicaId _ _ _ _ }

def pruneRetainedWalThrough (archivedLsn nowMs : Nat) (metadataDurable : Bool) :
    PrimaryReplication :=
  let q := p.enforceRetentionLimits nowMs
  let pruneLsn := match q.retentionFloorLsn metadataDurable with
    | some floor => min floor archivedLsn
    | none => archivedLsn
  if 0 < pruneLsn then { q with walBuffer := q.walBuffer.pruneThrough pruneLsn } else q

def slotRebootstrapReason (id : String) (requestedSinceLsn : Nat) (oldestAvailableLsn : Option Nat) (nowMs : Nat) :
    Option ReplicationSlotInvalidationCause × PrimaryReplication :=
  match p.slots.get? id with
  | none => (none, p)
  | some slot =>
    match slot.invalidationReason with
    | some reason => (some reason, p)
    | none =>
      let slotFloor := max slot.restartLsn requestedSinceLsn
      if oldestAvailableLsn.any fun oldest => decide (saturatingAdd slotFloor 1 < oldest) then
        (some .walRemoved, { p with slots := p.slots.put (slot.invalidated .walRemoved nowMs) })
      else (none, p)

def planReplicaResume (id : String) (requestedSinceLsn : Nat)
    (oldestAvailableLsn : Option Nat) (nowMs : Nat) : ResumeMode × PrimaryReplication :=
  match p.slotRebootstrapReason id requestedSinceLsn oldestAvailableLsn nowMs with
  | (some cause, q) => (.fullRebootstrap cause, { q with fullResyncCount := (q.fullResyncCount + 1) % 2 ^ 64 })
  | (none, q) =>
    let resumeLsn := match q.slots.slots.values.find? fun slot => decide (slot.replicaId = id) with
      | some slot => max requestedSinceLsn slot.restartLsn
      | none => requestedSinceLsn
    (.partialResync resumeLsn, { q with partialResyncCount := (q.partialResyncCount + 1) % 2 ^ 64 })

end

end PrimaryReplication

inductive QuorumMode
  | async
  | sync (minReplicas : Nat)
  | regions (required : List String)
  deriving DecidableEq, Repr

structure QuorumCoordinator where
  primary : PrimaryReplication
  regions : SortedMap String String

namespace QuorumCoordinator

def new (primary : PrimaryReplication) : QuorumCoordinator := ⟨primary, .empty⟩

section

variable (c : QuorumCoordinator)

def bindReplicaRegion (replicaId region : String) : QuorumCoordinator :=
  { c with regions := c.regions.insert replicaId region }

def unbindReplica (replicaId : String) : QuorumCoordinator :=
  { c with regions := c.regions.filterKeys (· ≠ replicaId) }

def ackedRegions (targetLsn : Nat) : List String :=
  (c.primary.replicas.filter fun r => decide (targetLsn ≤ r.lastDurableLsn)).filterMap fun r => c.regions.get? r.id

def hasQuorum (mode : QuorumMode) (targetLsn : Nat) : Bool :=
  match mode with
  | .async => true
  | .sync minReplicas => decide (targetLsn ≤ c.primary.commitWaiter.commitWatermark minReplicas)
  | .regions required => required.all fun region => (c.ackedRegions targetLsn).contains region

end

end QuorumCoordinator

inductive PrimaryEvent
  | appendLogicalRecord (lsn : Nat) (encoded : Bytes)
  | registerReplicaWithRegion (id : String) (region : Option String) (nowMs : Nat)
  | ensureReplicaRegistered (id : String) (requestedSinceLsn nowMs : Nat)
  | unregisterReplica (id : String)
  | ackReplica (id : String) (lsn nowMs : Nat)
  | ackReplicaLsn (id : String) (appliedLsn durableLsn applyErrorCount divergenceCount nowMs : Nat)
  | noteReplicaPull (id : String) (lastSentLsn nowMs : Nat)
  | bindReplicaRegion (id region : String)
  | unbindReplica (id : String)
  | enforceRetentionLimits (nowMs : Nat)
  | pruneRetainedWalThrough (archivedLsn nowMs : Nat) (metadataDurable : Bool)
  | planReplicaResume (id : String) (requestedSinceLsn nowMs : Nat)
  deriving DecidableEq, Repr

namespace QuorumCoordinator

variable (c : QuorumCoordinator)

def planResume (id : String) (requestedSinceLsn nowMs : Nat) : ResumeMode × PrimaryReplication :=
  c.primary.planReplicaResume id requestedSinceLsn c.primary.walBuffer.oldestLsn nowMs

def step : PrimaryEvent → Option QuorumCoordinator
  | .appendLogicalRecord lsn encoded => some { c with primary := c.primary.appendLogicalRecord lsn encoded }
  | .registerReplicaWithRegion id region nowMs =>
    some { c with primary := c.primary.registerReplicaWithRegion id region nowMs }
  | .ensureReplicaRegistered id requestedSinceLsn nowMs =>
    some { c with primary := c.primary.ensureReplicaRegistered id requestedSinceLsn nowMs }
  | .unregisterReplica id => some { c with primary := c.primary.unregisterReplica id }
  | .ackReplica id lsn nowMs => some { c with primary := c.primary.ackReplica id lsn nowMs }
  | .ackReplicaLsn id appliedLsn durableLsn applyErrorCount divergenceCount nowMs =>
    some { c with
      primary := c.primary.ackReplicaLsn id appliedLsn durableLsn applyErrorCount divergenceCount nowMs }
  | .noteReplicaPull id lastSentLsn nowMs => some { c with primary := c.primary.noteReplicaPull id lastSentLsn nowMs }
  | .bindReplicaRegion id region => some (c.bindReplicaRegion id region)
  | .unbindReplica id => some (c.unbindReplica id)
  | .enforceRetentionLimits nowMs => some { c with primary := c.primary.enforceRetentionLimits nowMs }
  | .pruneRetainedWalThrough archivedLsn nowMs metadataDurable =>
    some { c with primary := c.primary.pruneRetainedWalThrough archivedLsn nowMs metadataDurable }
  | .planReplicaResume id requestedSinceLsn nowMs => some
    { c with primary := (c.planResume id requestedSinceLsn nowMs).2 }

end QuorumCoordinator

end RedDB.Replication
