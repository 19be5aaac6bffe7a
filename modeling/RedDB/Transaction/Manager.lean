import RedDB.Library.Table
import RedDB.Transaction.Visibility

namespace RedDB.Transaction

open Library

def maxXid : Nat := 2 ^ 64 - 1

def saturatingSucc (x : Nat) : Nat := min (x + 1) maxXid

def autocommitPoolBatch : Nat := 16

abbrev LogicalRowKey := String × Nat

abbrev VaultRead := String × Option String × Option String

abbrev VaultWrite := String × Option String × String

structure SerializableTxnState where
  readSet : Finset LogicalRowKey
  vaultReads : Finset VaultRead
  incomingRw : Finset Nat
  outgoingRw : Finset Nat
  committed : Bool

def SerializableTxnState.default : SerializableTxnState :=
  { readSet := ∅, vaultReads := ∅, incomingRw := ∅, outgoingRw := ∅, committed := false }

instance : Inhabited SerializableTxnState := ⟨.default⟩

/-- Reserved ids `next ≤ x < stop`. -/
structure AutocommitPool where
  next : Nat
  stop : Nat
  deriving DecidableEq

def AutocommitPool.reserved (p : AutocommitPool) : Finset Nat := Finset.Ico p.next p.stop

structure SnapshotManager where
  nextXid : Nat
  pool : AutocommitPool
  active : Finset Nat
  snapshotHorizons : Table Nat Nat
  statementHorizons : Table Nat Nat
  aborted : Finset Nat
  pinned : Table Nat Nat
  serializable : Table Nat SerializableTxnState

namespace SnapshotManager

def new : SnapshotManager :=
  { nextXid := 1, pool := { next := 0, stop := 0 }, active := ∅, snapshotHorizons := .empty
    statementHorizons := .empty, aborted := ∅, pinned := .empty, serializable := .empty }

section

variable (m : SnapshotManager)

/-- `fetch_add` on the id counter. -/
def fetchAdd (n : Nat) : SnapshotManager := { m with nextXid := (m.nextXid + n) % 2 ^ 64 }

def begin : Nat × SnapshotManager :=
  (m.nextXid, { m.fetchAdd 1 with
    pool := { m.pool with next := m.pool.stop }
    active := insert m.nextXid m.active })

def freshReadSnapshot : Snapshot :=
  { xid := m.nextXid - 1, inProgress := m.active ∪ m.pool.reserved }

variable (s : Snapshot) (xid : Nat)

def retentionHorizon : Nat := s.inProgress.fold min (saturatingSucc s.xid) id

def retainSnapshot : Nat × SnapshotManager :=
  let horizon := retentionHorizon s
  (horizon, { m with statementHorizons :=
    m.statementHorizons.insert horizon ((m.statementHorizons.get? horizon).getD 0 + 1) })

def freshRetainedSnapshot : (Snapshot × Nat) × SnapshotManager :=
  let retained := m.retainSnapshot m.freshReadSnapshot
  ((m.freshReadSnapshot, retained.1), retained.2)

def dropRetention (horizon : Nat) : SnapshotManager :=
  if m.statementHorizons.get? horizon = some 1 then
    { m with statementHorizons := m.statementHorizons.erase horizon }
  else { m with statementHorizons := m.statementHorizons.modify horizon (· - 1) }

def snapshot : Snapshot × SnapshotManager :=
  let inProgress := m.active.filter (· ≠ xid) ∪ m.pool.reserved
  let horizon := inProgress.fold min xid id
  let retained := ((m.snapshotHorizons.get? xid).map (min · horizon)).getD horizon
  ({ xid, inProgress },
    if xid ∈ m.active then { m with snapshotHorizons := m.snapshotHorizons.insert xid retained } else m)

def pruneSerializableState : SnapshotManager :=
  if m.active = ∅ then { m with serializable := .empty } else m

def commit : SnapshotManager :=
  pruneSerializableState
    { m with
      active := m.active.erase xid
      snapshotHorizons := m.snapshotHorizons.erase xid
      aborted := m.aborted.erase xid
      serializable := m.serializable.modify xid fun ssi => { ssi with committed := true } }

end

section

variable (m : SnapshotManager)
include m

@[simp] theorem pruneSerializableState_nextXid : m.pruneSerializableState.nextXid = m.nextXid := by
  unfold pruneSerializableState; split_ifs <;> rfl

@[simp] theorem pruneSerializableState_pool : m.pruneSerializableState.pool = m.pool := by
  unfold pruneSerializableState; split_ifs <;> rfl

@[simp] theorem pruneSerializableState_active : m.pruneSerializableState.active = m.active := by
  unfold pruneSerializableState; split_ifs <;> rfl

@[simp] theorem pruneSerializableState_aborted : m.pruneSerializableState.aborted = m.aborted := by
  unfold pruneSerializableState; split_ifs <;> rfl

end

variable (m : SnapshotManager)

def allocateCommittedXid : Nat × SnapshotManager :=
  if m.pool.stop ≤ m.pool.next then
    (m.nextXid, { m.fetchAdd autocommitPoolBatch with
      pool := { next := m.nextXid + 1, stop := m.nextXid + autocommitPoolBatch } })
  else (m.pool.next, { m with pool := { m.pool with next := m.pool.next + 1 } })

variable (writer : Nat) (xid : Nat) (reader : Nat)

def rollback : SnapshotManager :=
  pruneSerializableState
    { m with
      active := m.active.erase xid
      snapshotHorizons := m.snapshotHorizons.erase xid
      aborted := insert xid m.aborted
      serializable := (m.serializable.erase xid).mapValues fun _ ssi =>
        { ssi with incomingRw := ssi.incomingRw.erase xid, outgoingRw := ssi.outgoingRw.erase xid } }

def beginSerializable : SnapshotManager :=
  match m.serializable.get? xid with
  | some _ => m
  | none => { m with serializable := m.serializable.insert xid .default }

def recordSerializableRead (key : LogicalRowKey) :
    SnapshotManager :=
  { m with serializable :=
    m.serializable.modify reader fun ssi => { ssi with readSet := insert key ssi.readSet } }

def recordSerializableVaultRead (read : VaultRead) :
    SnapshotManager :=
  { m with serializable :=
    m.serializable.modify reader fun ssi => { ssi with vaultReads := insert read ssi.vaultReads } }

/-- Record the edges from `readers` to `writer`, and say whether `writer` is now a pivot whose
    outgoing side has committed. -/
def serializableReadersWouldBeDangerous (readers : Finset Nat) :
    Bool × SnapshotManager :=
  let marked := m.serializable.mapValues fun x ssi =>
    if x ∈ readers then { ssi with outgoingRw := insert writer ssi.outgoingRw } else ssi
  let serializable := marked.modify writer fun ssi => { ssi with incomingRw := ssi.incomingRw ∪ readers }
  (match serializable.get? writer with
    | none => false
    | some ssi => decide (ssi.incomingRw.Nonempty ∧
        ∃ x ∈ ssi.outgoingRw, ((serializable.get? x).map (·.committed)).getD false = true),
    { m with serializable })

def rowReaders (writeSet : Finset LogicalRowKey) : Finset Nat :=
  m.serializable.keys.filter fun x =>
    x ≠ writer ∧ ¬ Disjoint (m.serializable.value x).readSet writeSet

def serializableCommitWouldBeDangerous (writeSet : Finset LogicalRowKey) : Bool × SnapshotManager :=
  if writeSet = ∅ then (false, m)
  else if writer ∈ m.serializable.keys then
    m.serializableReadersWouldBeDangerous writer (m.rowReaders writer writeSet)
  else (false, m)

def vaultReadMatches (read : VaultRead) (write : VaultWrite) : Bool :=
  read.1 == write.1 && read.2.1 == write.2.1 && (read.2.2.all fun key => key == write.2.2)

def vaultReaders (writeSet : Finset VaultWrite) : Finset Nat :=
  m.serializable.keys.filter fun x => x ≠ writer ∧
    ∃ read ∈ (m.serializable.value x).vaultReads, ∃ write ∈ writeSet, vaultReadMatches read write = true

def serializableVaultCommitWouldBeDangerous (writeSet : Finset VaultWrite) : Bool × SnapshotManager :=
  if writer ∈ m.serializable.keys then
    m.serializableReadersWouldBeDangerous writer (m.vaultReaders writer writeSet)
  else (false, m)

def observeCommittedXid : SnapshotManager :=
  if xid = xidNone then m
  else
    let target := saturatingSucc xid
    { m with
      pool := { m.pool with next := max m.pool.next (min target m.pool.stop) }
      nextXid := max m.nextXid target }

def pruneAborted (below : Nat) : SnapshotManager :=
  { m with aborted := m.aborted.filter fun x => below ≤ x ∨ x ∈ m.pinned.keys }

def pin : SnapshotManager :=
  if xid = xidNone then m
  else { m with pinned := m.pinned.insert xid ((m.pinned.get? xid).getD 0 + 1) }

def unpin : SnapshotManager :=
  if xid = xidNone then m
  else
    match m.pinned.get? xid with
    | some count =>
      if count ≤ 1 then { m with pinned := m.pinned.erase xid }
      else { m with pinned := m.pinned.modify xid (· - 1) }
    | none => m

end SnapshotManager

end RedDB.Transaction
