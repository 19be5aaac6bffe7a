import RedDB.Transaction.Atomicity

namespace RedDB.Transaction

open Library

structure RowVersion where
  collection : String
  id : Nat
  logicalId : Nat
  xmin : Nat
  xmax : Nat
  deriving DecidableEq

/-- An entry of `pending_versioned_updates`; the logical id is that of both versions. -/
structure PendingUpdate where
  collection : String
  oldId : Nat
  newId : Nat
  logicalId : Nat
  xid : Nat
  previousXmax : Nat
  deriving DecidableEq

/-- An entry of `pending_tombstones`. -/
structure PendingTombstone where
  collection : String
  id : Nat
  logicalId : Nat
  xid : Nat
  previousXmax : Nat
  deriving DecidableEq

structure WriteSet where
  updates : List PendingUpdate
  tombstones : List PendingTombstone
  deriving DecidableEq

namespace WriteSet

def empty : WriteSet := ⟨[], []⟩

variable (w : WriteSet)

/-- The row versions whose `xmax` the transaction stamped, the old versions of its updates first. -/
def stamps : List PendingTombstone :=
  w.updates.map (fun u => ⟨u.collection, u.oldId, u.logicalId, u.xid, u.previousXmax⟩) ++ w.tombstones

def rows : List LogicalRowKey := w.stamps.map fun p => (p.collection, p.logicalId)

def filter (keep : Nat → Bool) : WriteSet :=
  ⟨w.updates.filter fun u => keep u.xid, w.tombstones.filter fun t => keep t.xid⟩

end WriteSet

abbrev RowStore := List RowVersion

namespace RowStore

section

variable (store : RowStore)

variable (collection : String) (w : WriteSet)

def get? (id : Nat) : Option RowVersion :=
  store.find? fun v => v.collection = collection ∧ v.id = id

/-- Change the `xmax` of one version. -/
def setXmax (id : Nat) (xmax : Nat → Nat) : RowStore :=
  store.map fun v => if v.collection = collection ∧ v.id = id then { v with xmax := xmax v.xmax } else v

def unstamp (id xid previousXmax : Nat) : RowStore :=
  store.setXmax collection id fun xmax => if xmax = xid then previousXmax else xmax

def reviveVersionedUpdate (u : PendingUpdate) : RowStore :=
  RowStore.unstamp (store.filter fun v => ¬ (v.collection = u.collection ∧ v.id = u.newId))
    u.collection u.oldId u.xid u.previousXmax

def reviveVersionedUpdates (updates : List PendingUpdate) : RowStore :=
  updates.reverse.foldl reviveVersionedUpdate store

def reviveTombstones (tombstones : List PendingTombstone) : RowStore :=
  tombstones.foldl (fun store t => store.unstamp t.collection t.id t.xid t.previousXmax) store

def revive : RowStore := (store.reviveVersionedUpdates w.updates).reviveTombstones w.tombstones

def restorePendingWriteStamps : RowStore :=
  w.stamps.foldl (fun store p => store.setXmax p.collection p.id fun _ => p.xid) store

end

end RowStore

structure ConflictError where
  collection : String
  logicalId : Nat
  xid : Nat
  deriving DecidableEq, Repr

def ConflictError.message (e : ConflictError) : String :=
  s!"serialization conflict: table row {e.collection}/{e.logicalId} was modified by concurrent transaction {e.xid}"

section

variable (m : SnapshotManager) (snapshot : Snapshot) (ownXids : Finset Nat)

def xidConflictsWithSnapshot (xid : Nat) : Bool :=
  decide (xid ≠ xidNone ∧ xid ∉ ownXids ∧ xid ∉ m.aborted ∧ xid ∉ m.active ∧
    (snapshot.xid < xid ∨ xid ∈ snapshot.inProgress))

def checkXid (collection : String) (logicalId xid : Nat) : Except ConflictError Unit :=
  if xidConflictsWithSnapshot m snapshot ownXids xid then .error ⟨collection, logicalId, xid⟩ else .ok ()

def checkLogicalRowConflict (collection : String) (logicalId : Nat) (excludedIds : List Nat) :
    RowStore → Except ConflictError Unit
  | [] => .ok ()
  | v :: rest =>
    if v.collection ≠ collection ∨ v.id ∈ excludedIds ∨ v.logicalId ≠ logicalId then
      checkLogicalRowConflict collection logicalId excludedIds rest
    else do
      checkXid m snapshot ownXids collection logicalId v.xmin
      checkXid m snapshot ownXids collection logicalId v.xmax
      checkLogicalRowConflict collection logicalId excludedIds rest

def checkWrite (store : RowStore) (collection : String) (id xid previousXmax : Nat) (excludedIds : List Nat) :
    Except ConflictError Unit :=
  match store.get? collection id with
  | none => .ok ()
  | some v => do
    checkXid m snapshot ownXids collection v.logicalId previousXmax
    if v.xmax ≠ xid then checkXid m snapshot ownXids collection v.logicalId v.xmax
    checkLogicalRowConflict m snapshot ownXids collection v.logicalId excludedIds store

def checkUpdates (store : RowStore) : List PendingUpdate → Except ConflictError Unit
  | [] => .ok ()
  | u :: updates => do
    checkWrite m snapshot ownXids store u.collection u.oldId u.xid u.previousXmax [u.oldId, u.newId]
    checkUpdates store updates

def checkTombstones (store : RowStore) : List PendingTombstone → Except ConflictError Unit
  | [] => .ok ()
  | t :: tombstones => do
    checkWrite m snapshot ownXids store t.collection t.id t.xid t.previousXmax [t.id]
    checkTombstones store tombstones

def checkTableRowWriteConflicts (store : RowStore) (w : WriteSet) : Except ConflictError Unit := do
  checkUpdates m snapshot ownXids store w.updates
  checkTombstones m snapshot ownXids store w.tombstones

end

structure RowCommit where
  done : Committed
  writes : WriteSet

/-- The sessions with the rows they write. `checked` are the connections between their conflict check
    and their publication, `failed` those of them whose writes could not be logged; `publication` is the
    connection that holds the publication lock. -/
structure RowSystem where
  core : System
  store : RowStore
  nextId : Nat
  writes : Nat → WriteSet
  checked : Finset Nat
  failed : Finset Nat
  publication : Option Nat
  commits : List RowCommit

inductive RowEvent
  | session (e : Event)
  | insert (conn : Nat) (collection : String)
  | update (conn : Nat) (collection : String) (id : Nat)
  | delete (conn : Nat) (collection : String) (id : Nat)
  | rollbackTo (conn : Nat) (name : String)
  | rollback (conn : Nat)
  | check (conn : Nat)
  | refuse (conn : Nat)
  | publish (conn : Nat) (walOk : Bool)
  | retire (conn : Nat)
  deriving DecidableEq, Repr

namespace RowSystem

def init : RowSystem := ⟨.init, [], 1, fun _ => .empty, ∅, ∅, none, []⟩

section

variable (s : RowSystem)

def forwards : Event → Bool
  | .begin conn _ | .register conn | .takeSnapshot conn | .savepoint conn _ | .release conn _ => conn ∉ s.checked
  | .capture | .autocommit | .observe _ => true
  | .write _ | .rollbackTo _ _ | .commit _ | .refuse _ | .rollback _ | .retire _ => false

variable (conn : Nat) (context : TxnContext)

def currentSnapshot : Snapshot :=
  if context.isolation = .readCommitted then s.core.manager.freshReadSnapshot else context.snapshot

def reader : SnapshotContext :=
  ⟨s.currentSnapshot context, s.core.manager.aborted, context.ownXids⟩

def target (collection : String) (id : Nat) : Option (TxnContext × RowVersion) :=
  match s.core.session conn, s.store.get? collection id with
  | .running context, some v =>
    if conn ∉ s.checked ∧ s.publication = none ∧ visibilityCheck (s.reader context) v.xmin v.xmax then
      some (context, v)
    else none
  | _, _ => none

def withWrites (w : WriteSet) : RowSystem := { s with writes := Function.update s.writes conn w }

def abandon (e : Event) : Option RowSystem :=
  (s.core.step e).map fun core =>
    { s.withWrites conn .empty with
      core
      store := s.store.revive (s.writes conn)
      checked := s.checked.erase conn
      failed := s.failed.erase conn }

def step : RowEvent → Option RowSystem
  | .session e => if s.forwards e then (s.core.step e).map fun core => { s with core } else none
  | .insert conn collection =>
    match s.core.session conn with
    | .running context =>
      if conn ∈ s.checked ∨ s.publication ≠ none then none
      else
        (s.core.step (.write conn)).map fun core =>
          { s with
            core
            store := s.store ++ [⟨collection, s.nextId, s.nextId, context.writerXid, xidNone⟩]
            nextId := s.nextId + 1 }
    | _ => none
  | .update conn collection id => do
    let (context, v) ← s.target conn collection id
    let core ← s.core.step (.write conn)
    let w := s.writes conn
    pure { s.withWrites conn
        { w with updates := w.updates ++
            [⟨collection, id, s.nextId, v.logicalId, context.writerXid, v.xmax⟩] } with
      core
      store := s.store.setXmax collection id (fun _ => context.writerXid) ++
        [⟨collection, s.nextId, v.logicalId, context.writerXid, xidNone⟩]
      nextId := s.nextId + 1 }
  | .delete conn collection id => do
    let (context, v) ← s.target conn collection id
    let core ← s.core.step (.write conn)
    let w := s.writes conn
    pure { s.withWrites conn
        { w with tombstones := w.tombstones ++ [⟨collection, id, v.logicalId, context.writerXid, v.xmax⟩] } with
      core
      store := s.store.setXmax collection id fun _ => context.writerXid }
  | .rollbackTo conn name =>
    match s.core.session conn with
    | .running context =>
      if conn ∈ s.checked then none
      else
        match context.rollbackToSavepoint name with
        | .error _ => some s
        | .ok (rollback, _) =>
          let w := s.writes conn
          (s.core.step (.rollbackTo conn name)).map fun core =>
            { s.withWrites conn (w.filter (· < rollback.savepointXid)) with
              core
              store := s.store.revive (w.filter (rollback.savepointXid ≤ ·)) }
    | _ => none
  | .rollback conn => if conn ∈ s.checked then none else s.abandon conn (.rollback conn)
  | .check conn =>
    match s.core.session conn with
    | .running context =>
      if conn ∈ s.checked then none
      else
        match checkTableRowWriteConflicts s.core.manager context.snapshot context.ownXids s.store
            (s.writes conn) with
        | .ok _ => some { s with checked := insert conn s.checked }
        | .error _ => s.abandon conn (.refuse conn)
    | _ => none
  | .refuse conn => if conn ∈ s.checked then s.abandon conn (.refuse conn) else none
  | .publish conn walOk =>
    if conn ∈ s.checked ∧ conn ∉ s.failed ∧ s.publication = none then
      let restored := { s with store := s.store.restorePendingWriteStamps (s.writes conn) }
      if walOk then
        (s.core.step (.commit conn)).map fun core =>
          { restored with core, checked := s.checked.erase conn, publication := some conn }
      else some { restored with failed := insert conn s.failed }
    else none
  | .retire conn =>
    match s.core.session conn with
    | .retiring .commit context [_] =>
      (s.core.step (.retire conn)).map fun core =>
        { s.withWrites conn .empty with
          core
          publication := none
          commits := s.commits ++
            [⟨⟨context, s.core.journal conn, s.core.captures.length⟩, s.writes conn⟩] }
    | .retiring _ _ _ => (s.core.step (.retire conn)).map fun core => { s with core }
    | _ => none

end

end RowSystem

end RedDB.Transaction
