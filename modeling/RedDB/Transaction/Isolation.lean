import RedDB.Library.Runs
import RedDB.Transaction.Manager

namespace RedDB.Transaction

open List Library SnapshotManager Nat

inductive ManagerOp
  | begin
  | freshReadSnapshot
  | freshRetainedSnapshot
  | retainSnapshot (s : Snapshot)
  | dropRetention (horizon : Nat)
  | snapshot (xid : Nat)
  | commit (xid : Nat)
  | allocateCommittedXid
  | rollback (xid : Nat)
  | beginSerializable (xid : Nat)
  | recordSerializableRead (reader : Nat) (key : LogicalRowKey)
  | recordSerializableVaultRead (reader : Nat) (read : VaultRead)
  | serializableCommitCheck (writer : Nat) (writeSet : Finset LogicalRowKey)
  | serializableVaultCommitCheck (writer : Nat) (writeSet : Finset VaultWrite)
  | observeCommittedXid (xid : Nat)
  | pruneAborted (below : Nat)
  | pin (xid : Nat)
  | unpin (xid : Nat)

/-- A snapshot with the ids active when it was taken and the number of ids issued by then.
    `own` is the id it was taken for. -/
structure Capture where
  snapshot : Snapshot
  own : Option Nat
  active : Finset Nat
  issuedBefore : Nat

structure History where
  manager : SnapshotManager
  issued : List Nat
  captures : List Capture

namespace History

def init : History := { manager := .new, issued := [], captures := [] }

section

variable (h : History)

def issue (answer : Nat × SnapshotManager) : History :=
  { h with manager := answer.2, issued := h.issued ++ [answer.1] }

def capture (own : Option Nat) (snapshot : Snapshot) (manager : SnapshotManager) :
    History :=
  { h with
    manager
    captures := h.captures ++
      [{ snapshot, own, active := h.manager.active, issuedBefore := h.issued.length }] }

def apply : ManagerOp → History
  | .begin => h.issue h.manager.begin
  | .allocateCommittedXid => h.issue h.manager.allocateCommittedXid
  | .freshReadSnapshot => h.capture none h.manager.freshReadSnapshot h.manager
  | .freshRetainedSnapshot =>
    h.capture none h.manager.freshRetainedSnapshot.1.1 h.manager.freshRetainedSnapshot.2
  | .snapshot xid => h.capture (some xid) (h.manager.snapshot xid).1 (h.manager.snapshot xid).2
  | .retainSnapshot s => { h with manager := (h.manager.retainSnapshot s).2 }
  | .dropRetention horizon => { h with manager := h.manager.dropRetention horizon }
  | .commit xid => { h with manager := h.manager.commit xid }
  | .rollback xid => { h with manager := h.manager.rollback xid }
  | .beginSerializable xid => { h with manager := h.manager.beginSerializable xid }
  | .recordSerializableRead reader key =>
    { h with manager := h.manager.recordSerializableRead reader key }
  | .recordSerializableVaultRead reader read =>
    { h with manager := h.manager.recordSerializableVaultRead reader read }
  | .serializableCommitCheck writer writeSet =>
    { h with manager := (h.manager.serializableCommitWouldBeDangerous writer writeSet).2 }
  | .serializableVaultCommitCheck writer writeSet =>
    { h with manager := (h.manager.serializableVaultCommitWouldBeDangerous writer writeSet).2 }
  | .observeCommittedXid xid => { h with manager := h.manager.observeCommittedXid xid }
  | .pruneAborted below => { h with manager := h.manager.pruneAborted below }
  | .pin xid => { h with manager := h.manager.pin xid }
  | .unpin xid => { h with manager := h.manager.unpin xid }

def step (op : ManagerOp) : Option History := some (h.apply op)

def Admits : ManagerOp → Prop
  | .begin => h.manager.nextXid + 1 < maxXid
  | .allocateCommittedXid =>
    h.manager.pool.stop ≤ h.manager.pool.next → h.manager.nextXid + autocommitPoolBatch < maxXid
  | .observeCommittedXid xid => xid + 1 < maxXid
  | .snapshot xid => xid < h.manager.nextXid
  | _ => True

end

instance (h : History) : (op : ManagerOp) → Decidable (h.Admits op)
  | .begin | .observeCommittedXid _ | .snapshot _ => decLt _ _
  | .allocateCommittedXid => inferInstanceAs (Decidable (_ ≤ _ → _ < _))
  | .freshReadSnapshot | .freshRetainedSnapshot | .retainSnapshot _ | .dropRetention _ | .commit _
  | .rollback _ | .beginSerializable _ | .recordSerializableRead _ _ | .recordSerializableVaultRead _ _
  | .serializableCommitCheck _ _ | .serializableVaultCommitCheck _ _ | .pruneAborted _ | .pin _
  | .unpin _ => .isTrue trivial

end History

namespace SnapshotManager

section

variable (m : SnapshotManager)

def Unissued (x : Nat) : Prop := m.nextXid ≤ x ∨ x ∈ m.pool.reserved

/-- `m'` hands out no id that `m` would not, and has no transaction active that `m` had not. -/
structure Quiet (m m' : SnapshotManager) : Prop where
  nextXid : m'.nextXid = m.nextXid
  pool : m'.pool = m.pool
  active : m'.active ⊆ m.active

theorem Quiet.refl : Quiet m m := ⟨rfl, rfl, Finset.Subset.refl _⟩

variable (xid : Nat) (writer : Nat)

theorem commit_quiet : Quiet m (m.commit xid) := by
  constructor <;> simp [commit, Finset.erase_subset]

theorem rollback_quiet : Quiet m (m.rollback xid) := by
  constructor <;> simp [rollback, Finset.erase_subset]

theorem snapshot_quiet : Quiet m (m.snapshot xid).2 := by
  simp only [snapshot]
  split_ifs
  · exact ⟨rfl, rfl, Finset.Subset.refl _⟩
  · exact .refl m

theorem dropRetention_quiet (horizon : Nat) : Quiet m (m.dropRetention horizon) := by
  unfold dropRetention
  split_ifs <;> exact ⟨rfl, rfl, Finset.Subset.refl _⟩

theorem beginSerializable_quiet : Quiet m (m.beginSerializable xid) := by
  unfold beginSerializable
  split <;> exact ⟨rfl, rfl, Finset.Subset.refl _⟩

theorem commitCheck_quiet (writeSet : Finset LogicalRowKey) :
    Quiet m (m.serializableCommitWouldBeDangerous writer writeSet).2 := by
  unfold serializableCommitWouldBeDangerous
  split_ifs <;> exact ⟨rfl, rfl, Finset.Subset.refl _⟩

theorem vaultCommitCheck_quiet (writeSet : Finset VaultWrite) :
    Quiet m (m.serializableVaultCommitWouldBeDangerous writer writeSet).2 := by
  unfold serializableVaultCommitWouldBeDangerous
  split_ifs <;> exact ⟨rfl, rfl, Finset.Subset.refl _⟩

theorem pin_quiet : Quiet m (m.pin xid) := by
  unfold pin
  split_ifs <;> exact ⟨rfl, rfl, Finset.Subset.refl _⟩

theorem unpin_quiet : Quiet m (m.unpin xid) := by
  unfold unpin
  split_ifs
  · exact .refl m
  · split
    · split_ifs <;> exact ⟨rfl, rfl, Finset.Subset.refl _⟩
    · exact .refl m

end

variable {m : SnapshotManager} {x : Nat}

variable {m' : SnapshotManager} {xid : Nat}

theorem Quiet.unissued (quiet : Quiet m m') (later : m'.Unissued x) : m.Unissued x := by
  simpa [Unissued, quiet.nextXid, quiet.pool] using later

structure WellFormed (m : SnapshotManager) : Prop where
  positive : 0 < m.nextXid
  pool : m.pool.stop ≤ m.nextXid
  reserved : xidNone ∉ m.pool.reserved

theorem Quiet.wellFormed (quiet : Quiet m m') (ok : m.WellFormed) : m'.WellFormed where
  positive := quiet.nextXid ▸ ok.positive
  pool := by
    rw [quiet.nextXid, quiet.pool]
    exact ok.pool
  reserved := quiet.pool ▸ ok.reserved

theorem WellFormed.real (ok : m.WellFormed) (later : m.Unissued x) : x ≠ xidNone := by
  have positive := ok.positive
  rcases later with above | reserved
  · simp only [xidNone]
    omega
  · intro zero
    exact ok.reserved (zero ▸ reserved)

theorem mem_reserved {p : AutocommitPool} : x ∈ p.reserved ↔ p.next ≤ x ∧ x < p.stop := by
  simp [AutocommitPool.reserved]

/-- An operation that hands out `x`: `x` was not handed out before and cannot be again. -/
structure Issues (m : SnapshotManager) (x : Nat) (m' : SnapshotManager) : Prop where
  fresh : m.Unissued x
  rest : ∀ y, m'.Unissued y → m.Unissued y ∧ y ≠ x
  active : m'.active ⊆ insert x m.active
  wellFormed : m'.WellFormed

theorem fetchAdd_nextXid {n : Nat} (bound : m.nextXid + n < maxXid) :
    (m.fetchAdd n).nextXid = m.nextXid + n := by
  have small : m.nextXid + n < 2 ^ 64 := by
    unfold maxXid at bound
    omega
  exact mod_eq_of_lt small

theorem begin_issues (ok : m.WellFormed) (bound : m.nextXid + 1 < maxXid) :
    Issues m m.begin.1 m.begin.2 := by
  have next : m.begin.2.nextXid = m.nextXid + 1 := fetchAdd_nextXid bound
  have emptied : m.begin.2.pool.reserved = ∅ := by simp [begin, AutocommitPool.reserved]
  have pool := ok.pool
  refine ⟨.inl (le_refl _), fun y later => ?_, Finset.Subset.refl _, ?_⟩
  · simp only [Unissued, next, emptied, Finset.notMem_empty, or_false] at later
    have above : m.nextXid < y := later
    exact ⟨.inl above.le, above.ne'⟩
  · refine ⟨by omega, ?_, by simp [emptied]⟩
    rw [next]
    exact pool.trans (le_succ _)

theorem allocateCommittedXid_issues (ok : m.WellFormed)
    (bound : m.pool.stop ≤ m.pool.next → m.nextXid + autocommitPoolBatch < maxXid) :
    Issues m m.allocateCommittedXid.1 m.allocateCommittedXid.2 := by
  have pool := ok.pool
  have positive := ok.positive
  by_cases drained : m.pool.stop ≤ m.pool.next
  · have next : (m.fetchAdd autocommitPoolBatch).nextXid = m.nextXid + autocommitPoolBatch :=
      fetchAdd_nextXid (bound drained)
    simp only [allocateCommittedXid, if_pos drained]
    refine ⟨.inl (le_refl _), fun y later => ?_, Finset.subset_insert _ _, ?_⟩
    · simp only [Unissued, next, mem_reserved] at later
      have batch : autocommitPoolBatch = 16 := rfl
      have above : m.nextXid < y := by omega
      exact ⟨.inl above.le, above.ne'⟩
    · refine ⟨?_, ?_, ?_⟩
      · simp only [next]
        omega
      · simp only [next, le_refl]
      · simp [mem_reserved, xidNone]
  · have reserved : m.pool.next ∈ m.pool.reserved := mem_reserved.mpr ⟨le_refl _, not_le.mp drained⟩
    simp only [allocateCommittedXid, if_neg drained]
    refine ⟨.inr reserved, fun y later => ?_, Finset.subset_insert _ _, ?_⟩
    · simp only [Unissued, mem_reserved] at later ⊢
      omega
    · refine ⟨positive, pool, ?_⟩
      simp [mem_reserved, xidNone]

theorem observeCommittedXid_unissued (later : (m.observeCommittedXid xid).Unissued x) : m.Unissued x := by
  unfold observeCommittedXid at later
  split_ifs at later
  · exact later
  · simp only [Unissued, mem_reserved] at later ⊢
    omega

theorem observeCommittedXid_wellFormed (ok : m.WellFormed) (xid : Nat) : (m.observeCommittedXid xid).WellFormed := by
  have positive := ok.positive
  have pool := ok.pool
  have reserved := ok.reserved
  unfold observeCommittedXid
  split_ifs
  · exact ok
  · simp only [mem_reserved, xidNone] at reserved
    refine ⟨?_, ?_, ?_⟩
    · simp only
      omega
    · simp only
      omega
    · simp only [mem_reserved, xidNone]
      omega

theorem observeCommittedXid_active (m : SnapshotManager) (xid : Nat) :
    (m.observeCommittedXid xid).active = m.active := by
  unfold observeCommittedXid
  split_ifs <;> rfl

/-- A snapshot of `m` taken for `own` leaves out the ids still to come and the other active ids. -/
structure Captures (m : SnapshotManager) (own : Option Nat) (s : Snapshot) : Prop where
  below : s.xid < m.nextXid
  unissued : ∀ x, m.Unissued x → s.Excludes x
  active : ∀ x ∈ m.active, x ≠ xidNone → own ≠ some x → s.Excludes x

theorem freshReadSnapshot_captures (ok : m.WellFormed) : Captures m none m.freshReadSnapshot := by
  have positive := ok.positive
  refine ⟨sub_lt positive Nat.one_pos, fun x later => ⟨ok.real later, ?_⟩, ?_⟩
  · rcases later with above | reserved
    · left
      simp only [freshReadSnapshot]
      omega
    · exact .inr (Finset.mem_union_right _ reserved)
  · intro x active real _
    exact ⟨real, .inr (Finset.mem_union_left _ active)⟩

theorem snapshot_captures (ok : m.WellFormed) (known : xid < m.nextXid) :
    Captures m (some xid) (m.snapshot xid).1 := by
  refine ⟨known, fun x later => ⟨ok.real later, ?_⟩, ?_⟩
  · rcases later with above | reserved
    · exact .inl (lt_of_lt_of_le known above)
    · exact .inr (Finset.mem_union_right _ reserved)
  · intro x active real other
    refine ⟨real, .inr (Finset.mem_union_left _ (Finset.mem_filter.mpr ⟨active, ?_⟩))⟩
    intro same
    exact other (same ▸ rfl)

end SnapshotManager

namespace History

inductive Effect (h : History) : History → Prop
  | issue (x : Nat) (m : SnapshotManager) (issues : Issues h.manager x m) :
      Effect h (h.issue (x, m))
  | capture (own : Option Nat) (s : Snapshot) (m : SnapshotManager)
      (captures : Captures h.manager own s) (quiet : Quiet h.manager m) : Effect h (h.capture own s m)
  | other (m : SnapshotManager) (unissued : ∀ x, m.Unissued x → h.manager.Unissued x)
      (active : m.active ⊆ h.manager.active) (wellFormed : m.WellFormed) :
      Effect h { h with manager := m }

variable {h : History} {m : SnapshotManager}

theorem Effect.quiet (ok : h.manager.WellFormed) (quiet : Quiet h.manager m) : Effect h { h with manager := m } :=
  .other m (fun _ => quiet.unissued) quiet.active (quiet.wellFormed ok)

theorem apply_effect {op : ManagerOp} (ok : h.manager.WellFormed) (admitted : h.Admits op) :
    Effect h (h.apply op) := by
  cases op with
  | begin => exact .issue _ _ (begin_issues ok admitted)
  | allocateCommittedXid => exact .issue _ _ (allocateCommittedXid_issues ok admitted)
  | freshReadSnapshot => exact .capture none _ _ (freshReadSnapshot_captures ok) (.refl _)
  | freshRetainedSnapshot =>
    exact .capture none _ _ (freshReadSnapshot_captures ok) ⟨rfl, rfl, Finset.Subset.refl _⟩
  | snapshot xid => exact .capture (some xid) _ _ (snapshot_captures ok admitted) (snapshot_quiet _ xid)
  | observeCommittedXid xid =>
    exact .other _ (fun _ => observeCommittedXid_unissued)
      (observeCommittedXid_active h.manager xid).subset (observeCommittedXid_wellFormed ok xid)
  | commit xid => exact .quiet ok (commit_quiet _ xid)
  | rollback xid => exact .quiet ok (rollback_quiet _ xid)
  | dropRetention horizon => exact .quiet ok (dropRetention_quiet _ horizon)
  | beginSerializable xid => exact .quiet ok (beginSerializable_quiet _ xid)
  | serializableCommitCheck writer writeSet => exact .quiet ok (commitCheck_quiet _ writer writeSet)
  | serializableVaultCommitCheck writer writeSet =>
    exact .quiet ok (vaultCommitCheck_quiet _ writer writeSet)
  | pin xid => exact .quiet ok (pin_quiet _ xid)
  | unpin xid => exact .quiet ok (unpin_quiet _ xid)
  | retainSnapshot | recordSerializableRead | recordSerializableVaultRead | pruneAborted =>
    exact .quiet ok ⟨rfl, rfl, Finset.Subset.refl _⟩

/-- What a captured snapshot keeps excluding: the ids active then other than its own, every id
    issued since, and every id still to be issued. -/
structure Stable (h : History) (c : Capture) : Prop where
  length : c.issuedBefore ≤ h.issued.length
  active : ∀ x ∈ c.active, c.own ≠ some x → c.snapshot.Excludes x
  issued : ∀ x ∈ h.issued.drop c.issuedBefore, c.snapshot.Excludes x
  unissued : ∀ x, h.manager.Unissued x → c.snapshot.Excludes x

structure Inv (h : History) : Prop where
  wellFormed : h.manager.WellFormed
  distinct : h.issued.Nodup
  issued : ∀ x ∈ h.issued, x ≠ xidNone ∧ ¬ h.manager.Unissued x
  active : ∀ x ∈ h.manager.active, x ∈ h.issued
  captures : ∀ c ∈ h.captures, h.Stable c

theorem Inv.init : Inv init where
  wellFormed := by constructor <;> simp [History.init, new, AutocommitPool.reserved]
  distinct := nodup_nil
  issued := by simp [History.init]
  active := by simp [History.init, new]
  captures := by simp [History.init]

theorem Inv.issue (inv : Inv h) {x : Nat} (issues : Issues h.manager x m) : Inv (h.issue (x, m)) where
  wellFormed := issues.wellFormed
  distinct := by
    refine nodup_append.mpr ⟨inv.distinct, nodup_singleton x, fun y before z new => ?_⟩
    rw [mem_singleton.mp new]
    intro same
    exact (inv.issued y before).2 (same ▸ issues.fresh)
  issued := by
    intro y member
    rcases mem_append.mp member with before | new
    · exact ⟨(inv.issued y before).1, fun later => (inv.issued y before).2 (issues.rest y later).1⟩
    · rw [mem_singleton.mp new]
      exact ⟨inv.wellFormed.real issues.fresh, fun later => (issues.rest x later).2 rfl⟩
  active := by
    intro y member
    rcases Finset.mem_insert.mp (issues.active member) with rfl | before
    · exact mem_append_right _ (mem_singleton_self y)
    · exact mem_append_left _ (inv.active y before)
  captures := by
    intro c member
    have stable := inv.captures c member
    refine ⟨?_, stable.active, fun y later => ?_, fun y later => stable.unissued y (issues.rest y later).1⟩
    · simp only [History.issue, length_append]
      exact stable.length.trans (Nat.le_add_right _ _)
    · simp only [History.issue, drop_append_of_le_length stable.length] at later
      rcases mem_append.mp later with before | new
      · exact stable.issued y before
      · rw [mem_singleton.mp new]
        exact stable.unissued x issues.fresh

theorem Inv.other (inv : Inv h)
    (unissued : ∀ x, m.Unissued x → h.manager.Unissued x) (active : m.active ⊆ h.manager.active)
    (wellFormed : m.WellFormed) : Inv { h with manager := m } where
  wellFormed := wellFormed
  distinct := inv.distinct
  issued := fun x member => ⟨(inv.issued x member).1, fun later => (inv.issued x member).2 (unissued x later)⟩
  active := fun x member => inv.active x (active member)
  captures := by
    intro c member
    have stable := inv.captures c member
    exact ⟨stable.length, stable.active, stable.issued, fun x later => stable.unissued x (unissued x later)⟩

theorem Inv.capture (inv : Inv h) {own : Option Nat} {s : Snapshot}
    (captures : Captures h.manager own s) (quiet : Quiet h.manager m) : Inv (h.capture own s m) := by
  have after := inv.other (fun _ => quiet.unissued) quiet.active (quiet.wellFormed inv.wellFormed)
  refine ⟨after.wellFormed, after.distinct, after.issued, after.active, fun c member => ?_⟩
  rcases mem_append.mp member with before | new
  · have stable := after.captures c before
    exact ⟨stable.length, stable.active, stable.issued, stable.unissued⟩
  · rw [mem_singleton.mp new]
    refine ⟨le_refl _, fun x active other => ?_, by simp [History.capture], fun x later => ?_⟩
    · exact captures.active x active (inv.issued x (inv.active x active)).1 other
    · exact captures.unissued x (quiet.unissued later)

theorem Inv.apply (inv : Inv h) {op : ManagerOp} (admitted : h.Admits op) : Inv (h.apply op) := by
  generalize applied : h.apply op = after
  have effect : Effect h after := applied ▸ apply_effect inv.wellFormed admitted
  cases effect with
  | issue x m issues => exact inv.issue issues
  | capture own s m captures quiet => exact inv.capture captures quiet
  | other m unissued active wellFormed => exact inv.other unissued active wellFormed

/-- `s` never takes a write of `x` for committed: neither a row version `x` created nor a
    deletion `x` made, whatever set of ids is aborted when the row is read. -/
def NeverCommittedTo (s : Snapshot) (x : Nat) : Prop :=
  ∀ aborted : Finset Nat, (∀ xmax, isVisible x xmax s.xid s.inProgress aborted = false) ∧
    ∀ xmin, isVisible xmin x s.xid s.inProgress aborted = isVisible xmin xidNone s.xid s.inProgress aborted

theorem snapshot_isolation_of_ids {ops : List ManagerOp} {h : History}
    (run : Run (Guarded (Steps step) Admits) init ops h) :
    h.issued.Nodup ∧ ∀ c ∈ h.captures, ∀ x, (x ∈ c.active ∧ c.own ≠ some x ∨ x ∈ h.issued.drop c.issuedBefore) →
        NeverCommittedTo c.snapshot x := by
  have inv : Inv h := run.invariant
    (fun _ _ _ before taken => Option.some.inj taken.2 ▸ before.apply taken.1) Inv.init
  refine ⟨inv.distinct, fun c member x hidden aborted => ?_⟩
  have stable := inv.captures c member
  have excluded : c.snapshot.Excludes x := by
    rcases hidden with ⟨active, other⟩ | later
    · exact stable.active x active other
    · exact stable.issued x later
  exact ⟨fun xmax => excluded.created xmax aborted, fun xmin => excluded.deleted xmin aborted⟩

def overlapping : List ManagerOp := [.begin, .begin, .snapshot 2, .commit 1, .allocateCommittedXid]

theorem snapshot_isolation_of_ids_overlapping :
    ∃ h, Run (Guarded (Steps step) Admits) init overlapping h ∧ h.issued = [1, 2, 3] ∧
      ∃ c ∈ h.captures, c.own = some 2 ∧ NeverCommittedTo c.snapshot 1 ∧ NeverCommittedTo c.snapshot 3 := by
  obtain ⟨h, run, final⟩ := execute_reaches step Admits init overlapping
    (fun h => decide (h.issued = [1, 2, 3] ∧ ∃ c ∈ h.captures, c.own = some 2 ∧ 1 ∈ c.active ∧
      3 ∈ h.issued.drop c.issuedBefore)) (by decide)
  obtain ⟨issued, c, member, own, active, later⟩ := of_decide_eq_true final
  have isolated := (snapshot_isolation_of_ids run).2 c member
  exact ⟨h, run, issued, c, member, own, isolated 1 (.inl ⟨active, by rw [own]; decide⟩), isolated 3 (.inr later)⟩

theorem own_id_seen_while_in_progress : ∃ h, Run (Guarded (Steps step) Admits) init [.begin, .snapshot 1] h ∧
      ∃ c ∈ h.captures, 1 ∈ c.active ∧ c.snapshot.sees 1 xidNone = true := by
  obtain ⟨h, run, final⟩ := execute_reaches step Admits init [.begin, .snapshot 1]
    (fun h => decide (∃ c ∈ h.captures, 1 ∈ c.active ∧ c.snapshot.sees 1 xidNone = true)) (by decide)
  exact ⟨h, run, of_decide_eq_true final⟩

end History

end RedDB.Transaction
