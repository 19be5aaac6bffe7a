import RedDB.Transaction.Isolation

namespace RedDB.Transaction

open Library SnapshotManager

namespace Ssi

inductive Status
  | running
  | rowsChecked
  | admitted
  | committed (time : Nat)
  | refused
  | aborted
  deriving DecidableEq, Repr

/-- A serializable transaction since its snapshot was taken at `begun`. -/
structure Txn where
  begun : Nat
  status : Status
  rowReads : Finset LogicalRowKey
  vaultReads : Finset VaultRead
  rowWrites : Finset LogicalRowKey
  vaultWrites : Finset VaultWrite

def Txn.start (begun : Nat) : Txn :=
  { begun, status := .running, rowReads := ∅, vaultReads := ∅, rowWrites := ∅, vaultWrites := ∅ }

instance : Inhabited Txn := ⟨.start 0⟩

structure World where
  manager : SnapshotManager
  clock : Nat
  entered : Finset Nat
  txns : Table Nat Txn

inductive Event
  | begin
  | enter (xid : Nat)
  | takeSnapshot (xid : Nat)
  | readRow (xid : Nat) (key : LogicalRowKey)
  | readVault (xid : Nat) (read : VaultRead)
  | writeRow (xid : Nat) (key : LogicalRowKey)
  | writeVault (xid : Nat) (write : VaultWrite)
  | checkRows (xid : Nat)
  | checkVault (xid : Nat)
  | commit (xid : Nat)
  | rollback (xid : Nat)

namespace World

def init : World := { manager := .new, clock := 0, entered := ∅, txns := .empty }

section

variable (w : World) (m : SnapshotManager)

def tick : World := { w with manager := m, clock := w.clock + 1 }

def put (xid : Nat) (t : Txn) : World := { w.tick m with txns := w.txns.insert xid t, entered := w.entered.erase xid }

end

def vaultCheck (m : SnapshotManager) (xid : Nat) (t : Txn) : Bool × SnapshotManager :=
  if t.vaultWrites = ∅ then (false, m)
  else m.serializableVaultCommitWouldBeDangerous xid t.vaultWrites

def step (w : World) : Event → Option World
  | .begin => some (w.tick w.manager.begin.2)
  | .enter xid =>
    if xid ∈ w.manager.active ∧ xid ∉ w.entered ∧ xid ∉ w.txns.keys then
      some { w.tick (w.manager.beginSerializable xid) with entered := insert xid w.entered }
    else none
  | .takeSnapshot xid =>
    if xid ∈ w.entered then
      some (w.put (w.manager.snapshot xid).2 xid (.start w.clock))
    else none
  | .readRow xid key =>
    match w.txns.get? xid with
    | some t =>
      if t.status = .running then
        some (w.put (w.manager.recordSerializableRead xid key) xid { t with rowReads := insert key t.rowReads })
      else none
    | none => none
  | .readVault xid read =>
    match w.txns.get? xid with
    | some t =>
      if t.status = .running then
        some (w.put (w.manager.recordSerializableVaultRead xid read) xid
          { t with vaultReads := insert read t.vaultReads })
      else none
    | none => none
  | .writeRow xid key =>
    match w.txns.get? xid with
    | some t =>
      if t.status = .running then
        some (w.put w.manager xid { t with rowWrites := insert key t.rowWrites })
      else none
    | none => none
  | .writeVault xid write =>
    match w.txns.get? xid with
    | some t =>
      if t.status = .running then
        some (w.put w.manager xid { t with vaultWrites := insert write t.vaultWrites })
      else none
    | none => none
  | .checkRows xid =>
    match w.txns.get? xid with
    | some t =>
      if t.status = .running then
        let answer := w.manager.serializableCommitWouldBeDangerous xid t.rowWrites
        some (w.put answer.2 xid { t with status := if answer.1 then .refused else .rowsChecked })
      else none
    | none => none
  | .checkVault xid =>
    match w.txns.get? xid with
    | some t =>
      if t.status = .rowsChecked then
        let answer := vaultCheck w.manager xid t
        some (w.put answer.2 xid { t with status := if answer.1 then .refused else .admitted })
      else none
    | none => none
  | .commit xid =>
    match w.txns.get? xid with
    | some t =>
      if t.status = .admitted then
        some (w.put (w.manager.commit xid) xid { t with status := .committed w.clock })
      else none
    | none => if xid ∈ w.entered then none else some (w.tick (w.manager.commit xid))
  | .rollback xid =>
    match w.txns.get? xid with
    | some t =>
      match t.status with
      | .committed _ | .aborted => none
      | _ => some (w.put (w.manager.rollback xid) xid { t with status := .aborted })
    | none => some { w.tick (w.manager.rollback xid) with entered := w.entered.erase xid }

end World

inductive Channel
  | rows
  | vault
  deriving DecidableEq, Repr

/-- `t` read a row, or a vault entry, that `u` writes. -/
def dependencyOn (t u : Txn) : Channel → Prop
  | .rows => ¬ Disjoint t.rowReads u.rowWrites
  | .vault => ∃ read ∈ t.vaultReads, ∃ write ∈ u.vaultWrites, vaultReadMatches read write = true

instance (t u : Txn) : (c : Channel) → Decidable (dependencyOn t u c)
  | .rows => inferInstanceAs (Decidable (¬ _))
  | .vault => inferInstanceAs (Decidable (∃ _ ∈ _, ∃ _ ∈ _, _))

def dependency (t u : Txn) : Prop := dependencyOn t u .rows ∨ dependencyOn t u .vault

instance (t u : Txn) : Decidable (dependency t u) := inferInstanceAs (Decidable (_ ∨ _))

def Txn.committedAt (t : Txn) : Option Nat :=
  match t.status with
  | .committed time => some time
  | _ => none

/-- Three committed transactions, the first with a read-write dependency on the second and the
    second on the third, each such pair concurrent, and the third committed first. -/
def World.Dangerous (w : World) (tIn tPivot tOut : Nat) : Prop :=
  tIn ≠ tPivot ∧ tPivot ≠ tOut ∧ ∃ i ∈ w.txns.get? tIn, ∃ p ∈ w.txns.get? tPivot, ∃ o ∈ w.txns.get? tOut,
      ∃ ci ∈ i.committedAt, ∃ cp ∈ p.committedAt, ∃ co ∈ o.committedAt,
        dependency i p ∧ dependency p o ∧ (i.begun < cp ∧ p.begun < ci) ∧ (p.begun < co ∧ o.begun < cp) ∧
          co < cp ∧ co ≤ ci

instance (w : World) (tIn tPivot tOut : Nat) : Decidable (w.Dangerous tIn tPivot tOut) := by
  unfold World.Dangerous
  infer_instance

/-- The writer's check on this channel is behind it, and it has not committed before `begun`. -/
def Txn.Done (u : Txn) (begun : Nat) (c : Channel) : Prop :=
  match u.status with
  | .rowsChecked => c = .rows
  | .admitted => True
  | .committed time => begun < time
  | _ => False

instance (u : Txn) (begun : Nat) (c : Channel) : Decidable (u.Done begun c) := by
  unfold Txn.Done
  cases u.status <;> infer_instance

def Txn.committing (u : Txn) : Bool := u.status == .rowsChecked || u.status == .admitted

/-- Nobody reads what a concurrent writer has already been checked for, and nobody commits while
    a transaction with a dependency on it stands between its check and its commit. -/
def World.ChecksCoverReads (w : World) : Event → Prop
  | .readRow xid key => ∀ t ∈ w.txns.get? xid, ∀ y ∈ w.txns.keys, y ≠ xid → ∀ u ∈ w.txns.get? y,
    key ∈ u.rowWrites → ¬ u.Done t.begun .rows
  | .readVault xid read => ∀ t ∈ w.txns.get? xid, ∀ y ∈ w.txns.keys, y ≠ xid → ∀ u ∈ w.txns.get? y,
    (∃ write ∈ u.vaultWrites, vaultReadMatches read write = true) → ¬ u.Done t.begun .vault
  | .commit xid => ∀ t ∈ w.txns.get? xid, ∀ y ∈ w.txns.keys, y ≠ xid → ∀ u ∈ w.txns.get? y,
    u.committing = true → ¬ dependency u t
  | _ => True

instance (w : World) : (e : Event) → Decidable (w.ChecksCoverReads e)
  | .readRow _ _ | .readVault _ _ | .commit _ => by unfold World.ChecksCoverReads; infer_instance
  | .begin | .enter _ | .takeSnapshot _ | .writeRow _ _ | .writeVault _ _ | .checkRows _ | .checkVault _
  | .rollback _ => .isTrue trivial

end Ssi

end RedDB.Transaction
