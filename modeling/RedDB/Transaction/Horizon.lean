import RedDB.Transaction.RowCommit

namespace RedDB.Transaction

open List Library Table

namespace SnapshotManager

section

variable (m : SnapshotManager)

def requiredXids : Finset Nat :=
  m.active ∪ m.snapshotHorizons.keys.image m.snapshotHorizons.value ∪ m.statementHorizons.keys ∪
    m.pinned.keys

def oldestRequiredXid : Option Nat :=
  if required : m.requiredXids.Nonempty then some (m.requiredXids.min' required) else none

def mvccVacuumCutoffXid (retentionXids : Nat) : Nat :=
  let cutoff := match m.oldestRequiredXid with
    | some oldestRequired => min m.nextXid oldestRequired
    | none => m.nextXid
  if 0 < retentionXids then min cutoff (m.nextXid - retentionXids) else cutoff

def Reclaims (x : Nat) : Prop := ∀ y ∈ m.requiredXids, x < y

end

variable {m : SnapshotManager} {x : Nat}

theorem reclaims_of_lt_oldest (below : ∀ oldest, m.oldestRequiredXid = some oldest → x < oldest) : m.Reclaims x := by
  intro y required
  have some_required : m.requiredXids.Nonempty := ⟨y, required⟩
  have least : x < m.requiredXids.min' some_required := below _ (dif_pos some_required)
  exact lt_of_lt_of_le least (Finset.min'_le _ _ required)

theorem lt_oldest_of_lt_cutoff {retentionXids : Nat} (below : x < m.mvccVacuumCutoffXid retentionXids) :
    ∀ oldest, m.oldestRequiredXid = some oldest → x < oldest := by
  intro oldest horizon
  simp only [mvccVacuumCutoffXid, horizon] at below
  split_ifs at below
  · exact lt_of_lt_of_le below ((min_le_left _ _).trans (min_le_right _ _))
  · exact lt_of_lt_of_le below (min_le_right _ _)

theorem Reclaims.active {y : Nat} (reclaims : m.Reclaims x) (active : y ∈ m.active) : x < y :=
  reclaims y (by simp [requiredXids, active])

theorem Reclaims.snapshotHorizon {y horizon : Nat} (reclaims : m.Reclaims x)
    (taken : m.snapshotHorizons.get? y = some horizon) : x < horizon := by
  have held : y ∈ m.snapshotHorizons.keys := Table.mem_keys.mpr ⟨horizon, taken⟩
  have value : m.snapshotHorizons.value y = horizon := by simpa [get?, held] using taken
  apply reclaims
  simp only [requiredXids, Finset.mem_union, Finset.mem_image]
  exact .inl (.inl (.inr ⟨y, held, value⟩))

theorem Reclaims.statementHorizon {horizon : Nat} (reclaims : m.Reclaims x)
    (retained : horizon ∈ m.statementHorizons.keys) : x < horizon :=
  reclaims horizon (by simp [requiredXids, retained])

theorem Reclaims.pinned {xid : Nat} (reclaims : m.Reclaims x) (pinned : xid ∈ m.pinned.keys) : x < xid :=
  reclaims xid (by simp [requiredXids, pinned])

end SnapshotManager

variable {s : Snapshot} {x : Nat}

theorem not_excludes_of_lt_fold {bound : Nat} (last : bound ≤ s.xid + 1)
    (below : x < s.inProgress.fold min bound id) : ¬ s.Excludes x := by
  obtain ⟨first, rest⟩ := (Finset.lt_fold_min _).mp below
  rintro ⟨-, future | active⟩
  · omega
  · exact lt_irrefl x (rest x active)

theorem not_excludes_of_lt_retention (below : x < SnapshotManager.retentionHorizon s) : ¬ s.Excludes x :=
  not_excludes_of_lt_fold (min_le_left _ _) below

theorem unseen_of_not_excludes (real : x ≠ xidNone) (seen : ¬ s.Excludes x)
    (xmin : Nat) {aborted : Finset Nat} (clean : x ∉ aborted) :
    isVisible xmin x s.xid s.inProgress aborted = false := by
  have deleted : x ≤ s.xid ∧ x ∉ s.inProgress := by
    simpa [Snapshot.Excludes, real] using seen
  simp [isVisible, real, clean, deleted]

structure Entity where
  id : Nat
  logicalId : Nat
  tableRow : Bool
  xmin : Nat
  xmax : Nat
  deriving DecidableEq

structure MvccVacuumStats where
  scannedVersions : Nat
  retainedVersions : Nat
  reclaimedVersions : Nat
  retainedHistoryVersions : Nat
  reclaimedHistoryVersions : Nat
  retainedTombstones : Nat
  reclaimedTombstones : Nat

def MvccVacuumStats.default : MvccVacuumStats := ⟨0, 0, 0, 0, 0, 0, 0⟩

namespace Vacuum

variable (entities : List Entity)

def logical (logicalId : Nat) : Bool × Nat :=
  let versions := entities.filter fun e => e.tableRow && e.logicalId == logicalId
  (versions.any fun e => e.xmax == xidNone, (versions.map Entity.xmin).foldl max 0)

variable (cutoffXid : Nat) (e : Entity)

def isDeleteTombstone : Bool :=
  let (hasLiveVersion, maxXmin) := logical entities e.logicalId
  !hasLiveVersion && e.xmin == maxXmin

def scanned : Bool := e.tableRow && e.xmax != xidNone

def reclaims (e : Entity) : Bool := scanned e && decide (e.xmax < cutoffXid)

def count (stats : MvccVacuumStats) (e : Entity) :
    MvccVacuumStats :=
  if scanned e then
    let stats := { stats with scannedVersions := stats.scannedVersions + 1 }
    if e.xmax < cutoffXid then
      let stats := { stats with reclaimedVersions := stats.reclaimedVersions + 1 }
      if isDeleteTombstone entities e then
        { stats with reclaimedTombstones := stats.reclaimedTombstones + 1 }
      else { stats with reclaimedHistoryVersions := stats.reclaimedHistoryVersions + 1 }
    else
      let stats := { stats with retainedVersions := stats.retainedVersions + 1 }
      if isDeleteTombstone entities e then
        { stats with retainedTombstones := stats.retainedTombstones + 1 }
      else { stats with retainedHistoryVersions := stats.retainedHistoryVersions + 1 }
  else stats

end Vacuum

structure Collection where
  entities : List Entity
  distinct : (entities.map Entity.id).Nodup

def vacuumMvccHistory (collection : Collection) (cutoffXid : Nat) : MvccVacuumStats × Collection :=
  let entities := collection.entities
  let reclaimIds := (entities.filter (Vacuum.reclaims cutoffXid)).map Entity.id
  (entities.foldl (Vacuum.count entities cutoffXid) .default,
    { entities := entities.filter fun e => !reclaimIds.contains e.id
      distinct := collection.distinct.sublist (filter_sublist.map _) })

theorem reclaims_of_vacuumed {collection : Collection} {cutoffXid : Nat} {e : Entity} (held : e ∈ collection.entities)
    (gone : e ∉ (vacuumMvccHistory collection cutoffXid).2.entities) :
    e.xmax ≠ xidNone ∧ e.xmax < cutoffXid := by
  simp only [vacuumMvccHistory, mem_filter, held, true_and, Bool.not_eq_true',
    Bool.not_eq_false, contains_eq_mem, decide_eq_true_eq, mem_map] at gone
  obtain ⟨other, reclaimed, same⟩ := gone
  have itself : other = e := inj_on_of_nodup_map collection.distinct reclaimed.1 held same
  have row : e.tableRow = true ∧ e.xmax ≠ xidNone ∧ e.xmax < cutoffXid := by
    simpa [itself, Vacuum.reclaims, Vacuum.scanned, and_assoc] using reclaimed.2
  exact row.2

/-- The snapshot manager's history with the retention guards alive and the ids known to have
    committed: those of transactions, of the autocommit pool, and of replayed writes. -/
structure Readers where
  history : History
  guards : List Snapshot
  committed : List Nat

inductive ReaderOp
  | call (op : ManagerOp)
  | dropGuard (s : Snapshot)

namespace Readers

def init : Readers := { history := .init, guards := [], committed := [] }

section

variable (r : Readers)

def manager : SnapshotManager := r.history.manager

def retains : ManagerOp → List Snapshot
  | .freshRetainedSnapshot => [r.manager.freshReadSnapshot]
  | .retainSnapshot s => [s]
  | _ => []

def commits : ManagerOp → List Nat
  | .commit xid => if xid ∈ r.manager.active then [xid] else []
  | .allocateCommittedXid => [r.manager.allocateCommittedXid.1]
  | .observeCommittedXid xid => if xid = xidNone then [] else [xid]
  | _ => []

def apply : ReaderOp → Readers
  | .call op =>
    { history := r.history.apply op, guards := r.retains op ++ r.guards
      committed := r.commits op ++ r.committed }
  | .dropGuard s =>
    { r with
      history := r.history.apply (.dropRetention (SnapshotManager.retentionHorizon s))
      guards := r.guards.erase s }

def step (op : ReaderOp) : Option Readers := some (r.apply op)

def Admits : ReaderOp → Prop
  | .call (.dropRetention _) => False
  | .call op => r.history.Admits op
  | .dropGuard s => s ∈ r.guards

end

instance (r : Readers) : (op : ReaderOp) → Decidable (r.Admits op)
  | .call op => by
    cases op <;> simp only [Admits] <;> infer_instance
  | .dropGuard s => inferInstanceAs (Decidable (s ∈ r.guards))

/-- The snapshots a vacuum has to respect: a running transaction's, a retained one, and what an
    `AS OF` a pinned id reads. -/
def Needs (r : Readers) (s : Snapshot) : Prop :=
  (∃ c ∈ r.history.captures, c.snapshot = s ∧ ∃ owner ∈ c.active, c.own = some owner ∧ owner ∈ r.manager.active) ∨
  s ∈ r.guards ∨ ∃ xid ∈ r.manager.pinned.keys, s = { xid, inProgress := ∅ }

/-- Captured after `r`, for no transaction or for one that was running. -/
def CapturesSince (r after : Readers) (s : Snapshot) : Prop :=
  ∃ c ∈ after.history.captures.drop r.history.captures.length, c.snapshot = s ∧
    ∀ owner, c.own = some owner → owner ∈ c.active

end Readers

namespace SnapshotManager

/-- `m'` forgets no horizon of a transaction it has active, and has none active that `m` had not. -/
structure Keeps (m m' : SnapshotManager) : Prop where
  active : m'.active ⊆ m.active
  snapshots : ∀ y ∈ m'.active, m'.snapshotHorizons.get? y = m.snapshotHorizons.get? y
  statements : m'.statementHorizons = m.statementHorizons

theorem Keeps.refl (m : SnapshotManager) : Keeps m m := ⟨Finset.Subset.refl _, fun _ _ => rfl, rfl⟩

theorem Keeps.of_same {m m' : SnapshotManager} (active : m'.active = m.active)
    (snapshots : m'.snapshotHorizons = m.snapshotHorizons)
    (statements : m'.statementHorizons = m.statementHorizons) : Keeps m m' :=
  ⟨active.subset, fun _ _ => by rw [snapshots], statements⟩

variable (m : SnapshotManager)

@[simp] theorem pruneSerializableState_snapshotHorizons :
    m.pruneSerializableState.snapshotHorizons = m.snapshotHorizons := by
  unfold pruneSerializableState; split_ifs <;> rfl

@[simp] theorem pruneSerializableState_statementHorizons :
    m.pruneSerializableState.statementHorizons = m.statementHorizons := by
  unfold pruneSerializableState; split_ifs <;> rfl

variable (xid : Nat) (writer : Nat)

theorem commit_keeps : Keeps m (m.commit xid) := by
  refine ⟨by simp [commit, Finset.erase_subset], fun y active => ?_, by simp [commit]⟩
  have other : y ≠ xid := by
    simp only [commit, pruneSerializableState_active] at active
    exact (Finset.mem_erase.mp active).1
  simp [commit, get?_erase, other]

theorem rollback_keeps : Keeps m (m.rollback xid) := by
  refine ⟨by simp [rollback, Finset.erase_subset], fun y active => ?_, by simp [rollback]⟩
  have other : y ≠ xid := by
    simp only [rollback, pruneSerializableState_active] at active
    exact (Finset.mem_erase.mp active).1
  simp [rollback, get?_erase, other]

theorem dropRetention_statementHorizons (horizon : Nat) :
    (m.dropRetention horizon).statementHorizons =
      if m.statementHorizons.get? horizon = some 1 then m.statementHorizons.erase horizon
      else m.statementHorizons.modify horizon (· - 1) := by
  unfold dropRetention
  split_ifs <;> rfl

theorem beginSerializable_keeps : Keeps m (m.beginSerializable xid) := by
  unfold beginSerializable
  split <;> exact .of_same rfl rfl rfl

theorem commitCheck_keeps (writeSet : Finset LogicalRowKey) :
    Keeps m (m.serializableCommitWouldBeDangerous writer writeSet).2 := by
  unfold serializableCommitWouldBeDangerous
  split_ifs <;> exact .of_same rfl rfl rfl

theorem vaultCommitCheck_keeps (writeSet : Finset VaultWrite) :
    Keeps m (m.serializableVaultCommitWouldBeDangerous writer writeSet).2 := by
  unfold serializableVaultCommitWouldBeDangerous
  split_ifs <;> exact .of_same rfl rfl rfl

theorem observeCommittedXid_keeps : Keeps m (m.observeCommittedXid xid) := by
  unfold observeCommittedXid
  split_ifs <;> exact .of_same rfl rfl rfl

theorem allocateCommittedXid_keeps : Keeps m m.allocateCommittedXid.2 := by
  unfold allocateCommittedXid
  split_ifs <;> exact .of_same rfl rfl rfl

theorem pin_keeps : Keeps m (m.pin xid) := by
  unfold pin
  split_ifs <;> exact .of_same rfl rfl rfl

theorem unpin_keeps : Keeps m (m.unpin xid) := by
  unfold unpin
  split_ifs
  · exact .refl m
  · split
    · split_ifs <;> exact .of_same rfl rfl rfl
    · exact .refl m

end SnapshotManager

namespace Readers

open SnapshotManager

/-- The horizon registered for the transaction a snapshot was taken for reaches down to the oldest
    writer the snapshot excludes. -/
def Covered (m : SnapshotManager) (c : Capture) : Prop :=
  ∀ owner ∈ c.active, c.own = some owner → owner ∈ m.active →
    ∃ horizon, m.snapshotHorizons.get? owner = some horizon ∧
      horizon ≤ c.snapshot.inProgress.fold min c.snapshot.xid id

structure Inv (r : Readers) : Prop where
  history : r.history.Inv
  committed : ∀ x ∈ r.committed, x ≠ xidNone ∧ ¬ r.manager.Unissued x
  guards : r.manager.statementHorizons.Counts (r.guards.map retentionHorizon)
  issued : ∀ c ∈ r.history.captures, ∀ y ∈ c.active, ¬ r.manager.Unissued y
  covered : ∀ c ∈ r.history.captures, Covered r.manager c

variable {m : SnapshotManager} {c : Capture}

theorem Covered.keeps {m' : SnapshotManager} (covered : Covered m c) (keeps : Keeps m m') :
    Covered m' c := by
  intro owner member own active
  obtain ⟨horizon, taken, below⟩ := covered owner member own (keeps.active active)
  exact ⟨horizon, (keeps.snapshots owner active).trans taken, below⟩

theorem Covered.begin (covered : Covered m c) (issued : ∀ y ∈ c.active, ¬ m.Unissued y) : Covered m.begin.2 c := by
  intro owner member own active
  rcases Finset.mem_insert.mp active with fresh | before
  · exact absurd (.inl fresh.ge) (issued owner member)
  · exact covered owner member own before

theorem Covered.snapshot (covered : Covered m c) (xid : Nat) : Covered (m.snapshot xid).2 c := by
  intro owner member own active
  have running : owner ∈ m.active := snapshot_quiet m xid |>.active active
  obtain ⟨horizon, taken, below⟩ := covered owner member own running
  simp only [SnapshotManager.snapshot]
  split_ifs with registered
  · by_cases same : owner = xid
    · subst same
      simp only [get?_insert, if_true, taken, Option.map_some, Option.getD_some]
      exact ⟨_, rfl, (min_le_left _ _).trans below⟩
    · exact ⟨horizon, by rw [get?_insert, if_neg same, taken], below⟩
  · exact ⟨horizon, taken, below⟩

theorem Covered.taken (m : SnapshotManager) (xid : Nat) (issuedBefore : Nat) : Covered (m.snapshot xid).2
      { snapshot := (m.snapshot xid).1, own := some xid, active := m.active, issuedBefore } := by
  intro owner member own active
  obtain rfl : xid = owner := Option.some.inj own
  have registered : xid ∈ m.active := member
  simp only [SnapshotManager.snapshot, if_pos registered, get?_insert, if_true]
  refine ⟨_, rfl, ?_⟩
  cases m.snapshotHorizons.get? xid with
  | none => exact le_refl _
  | some previous => exact min_le_right _ _

variable {r : Readers} {op : ManagerOp}

theorem Admits.history (admitted : r.Admits (.call op)) : r.history.Admits op := by
  cases op <;> first | exact admitted | exact trivial

variable {h : History} {x : Nat}

theorem apply_unissued (ok : h.manager.WellFormed)
    (admitted : h.Admits op) (later : (h.apply op).manager.Unissued x) :
    h.manager.Unissued x := by
  generalize applied : h.apply op = after at later
  have effect : h.Effect after := applied ▸ History.apply_effect ok admitted
  cases effect with
  | issue y m issues => exact (issues.rest x later).1
  | capture own s m captures quiet => exact quiet.unissued later
  | other m unissued active wellFormed => exact unissued x later

theorem observeCommittedXid_issued {xid : Nat} (real : xid ≠ xidNone)
    (bound : xid + 1 < maxXid) : ¬ (m.observeCommittedXid xid).Unissued xid := by
  simp only [observeCommittedXid, if_neg real, Unissued, mem_reserved, saturatingSucc]
  omega

theorem commits_settled (inv : r.history.Inv) (admitted : r.history.Admits op) (member : x ∈ r.commits op) :
    x ≠ xidNone ∧ ¬ (r.history.apply op).manager.Unissued x := by
  cases op with
  | commit xid =>
    simp only [commits] at member
    split_ifs at member with active
    · rw [mem_singleton.mp member]
      have issued := inv.issued xid (inv.active xid active)
      exact ⟨issued.1, fun later => issued.2 ((commit_quiet r.history.manager xid).unissued later)⟩
    · cases member
  | allocateCommittedXid =>
    rw [mem_singleton.mp member]
    have issues := allocateCommittedXid_issues inv.wellFormed admitted
    exact ⟨inv.wellFormed.real issues.fresh, fun later => (issues.rest _ later).2 rfl⟩
  | observeCommittedXid xid =>
    simp only [commits] at member
    split_ifs at member with none
    · cases member
    · rw [mem_singleton.mp member]
      exact ⟨none, observeCommittedXid_issued none admitted⟩
  | _ => cases member

theorem captured_active (member : c ∈ (h.apply op).captures) : c ∈ h.captures ∨ c.active = h.manager.active := by
  cases op with
  | freshReadSnapshot | freshRetainedSnapshot | snapshot =>
    rcases mem_append.mp member with before | new
    · exact .inl before
    · rw [mem_singleton.mp new]
      exact .inr rfl
  | _ => exact .inl member

def Plain : ManagerOp → Prop
  | .begin | .snapshot _ | .freshRetainedSnapshot | .retainSnapshot _ | .dropRetention _ => False
  | _ => True

theorem apply_keeps (h : History) (op : ManagerOp) (plain : Plain op) : Keeps h.manager (h.apply op).manager := by
  cases op with
  | commit xid => exact commit_keeps _ xid
  | rollback xid => exact rollback_keeps _ xid
  | beginSerializable xid => exact beginSerializable_keeps _ xid
  | serializableCommitCheck writer writeSet => exact commitCheck_keeps _ writer writeSet
  | serializableVaultCommitCheck writer writeSet => exact vaultCommitCheck_keeps _ writer writeSet
  | observeCommittedXid xid => exact observeCommittedXid_keeps _ xid
  | allocateCommittedXid => exact allocateCommittedXid_keeps _
  | pin xid => exact pin_keeps _ xid
  | unpin xid => exact unpin_keeps _ xid
  | freshReadSnapshot | recordSerializableRead | recordSerializableVaultRead | pruneAborted =>
    exact .of_same rfl rfl rfl
  | begin | snapshot | freshRetainedSnapshot | retainSnapshot | dropRetention => exact plain.elim

theorem guards_counted (inv : r.Inv) (admitted : r.Admits (.call op)) :
    (r.history.apply op).manager.statementHorizons.Counts
      ((r.retains op ++ r.guards).map retentionHorizon) := by
  have before := inv.guards
  have keeps := apply_keeps r.history op
  cases op with
  | begin => exact before
  | freshRetainedSnapshot | retainSnapshot s => exact before.retain _
  | dropRetention horizon => exact admitted.elim
  | snapshot xid =>
    simp only [retains, nil_append, History.apply, History.capture, SnapshotManager.snapshot]
    split_ifs <;> exact before
  | _ =>
    rw [(keeps trivial).statements]
    exact before

theorem Covered.apply (covered : Covered h.manager c)
    (issued : ∀ y ∈ c.active, ¬ h.manager.Unissued y) (op : ManagerOp) :
    Covered (h.apply op).manager c := by
  have keeps := apply_keeps h op
  cases op with
  | begin => exact covered.begin issued
  | snapshot xid => exact covered.snapshot xid
  | freshRetainedSnapshot => exact covered
  | retainSnapshot s => exact covered
  | dropRetention horizon =>
    simp only [History.apply, dropRetention]
    split_ifs <;> exact covered
  | _ => exact covered.keeps (keeps trivial)

theorem captured_covered (member : c ∈ (h.apply op).captures) : c ∈ h.captures ∨ Covered (h.apply op).manager c := by
  cases op with
  | freshReadSnapshot | freshRetainedSnapshot =>
    rcases mem_append.mp member with before | new
    · exact .inl before
    · rw [mem_singleton.mp new]
      exact .inr fun owner _ own => by cases own
  | snapshot xid =>
    rcases mem_append.mp member with before | new
    · exact .inl before
    · rw [mem_singleton.mp new]
      exact .inr (Covered.taken _ xid _)
  | _ => exact .inl member

theorem Inv.call (inv : r.Inv) (admitted : r.Admits (.call op)) : Inv (r.apply (.call op)) where
  history := inv.history.apply admitted.history
  committed := by
    intro x member
    rcases mem_append.mp member with new | before
    · exact commits_settled inv.history admitted.history new
    · have settled := inv.committed x before
      exact ⟨settled.1, fun later =>
        settled.2 (apply_unissued inv.history.wellFormed admitted.history later)⟩
  guards := guards_counted inv admitted
  issued := by
    intro c member y active later
    have unissued := apply_unissued inv.history.wellFormed admitted.history later
    rcases captured_active member with before | now
    · exact inv.issued c before y active unissued
    · rw [now] at active
      exact (inv.history.issued y (inv.history.active y active)).2 unissued
  covered := by
    intro c member
    rcases captured_covered member with before | now
    · exact (inv.covered c before).apply (inv.issued c before) op
    · exact now

theorem Inv.dropGuard (inv : r.Inv) {s : Snapshot} (held : s ∈ r.guards) : Inv (r.apply (.dropGuard s)) := by
  have quiet := dropRetention_quiet r.manager (retentionHorizon s)
  have admitted : r.history.Admits (.dropRetention (retentionHorizon s)) := trivial
  refine ⟨inv.history.apply admitted, fun x member => ?_, ?_, fun c member y active later => ?_, ?_⟩
  · have settled := inv.committed x member
    exact ⟨settled.1, fun later => settled.2 (quiet.unissued later)⟩
  · have released := inv.guards.release (mem_map_of_mem held)
    have left : ((r.guards.map retentionHorizon).erase (retentionHorizon s)).Perm
        ((r.guards.erase s).map retentionHorizon) := by
      have split := (perm_cons_erase held).map retentionHorizon
      simpa using split.erase (retentionHorizon s)
    exact (dropRetention_statementHorizons r.manager _).symm ▸ released.perm left
  · exact inv.issued c member y active (quiet.unissued later)
  · exact fun c member => (inv.covered c member).apply (inv.issued c member) _

theorem Inv.apply (inv : r.Inv) {op : ReaderOp} (admitted : r.Admits op) : Inv (r.apply op) := by
  cases op with
  | call op => exact inv.call admitted
  | dropGuard s => exact inv.dropGuard admitted

theorem Inv.init : Inv init where
  history := .init
  committed := by simp [Readers.init]
  guards := Table.Counts.empty
  issued := by simp [Readers.init, History.init]
  covered := by simp [Readers.init, History.init]

theorem Inv.unneeded (inv : r.Inv) (reclaims : r.manager.Reclaims x)
    {s : Snapshot} (needs : r.Needs s) : ¬ s.Excludes x := by
  rcases needs with ⟨c, member, rfl, owner, active, own, running⟩ | retained | ⟨xid, pinned, rfl⟩
  · obtain ⟨horizon, taken, reach⟩ := inv.covered c member owner active own running
    apply not_excludes_of_lt_fold (Nat.le_succ _)
    exact lt_of_lt_of_le (reclaims.snapshotHorizon taken) reach
  · have held := inv.guards.mem_keys (mem_map_of_mem retained)
    exact not_excludes_of_lt_retention (reclaims.statementHorizon held)
  · have below := reclaims.pinned pinned
    rintro ⟨-, future | active⟩
    · exact absurd future (not_lt.mpr below.le)
    · cases active

/-- `x` has been handed out, every running transaction is younger, and no snapshot captured after
    the first `base` ones excludes it. -/
structure Settled (base x : Nat) (r : Readers) : Prop where
  issued : ¬ r.manager.Unissued x
  active : ∀ y ∈ r.manager.active, x < y
  length : base ≤ r.history.captures.length
  captures : ∀ c ∈ r.history.captures.drop base,
    (∀ owner, c.own = some owner → owner ∈ c.active) → ¬ c.snapshot.Excludes x

theorem Settled.now (inv : r.Inv) (committed : x ∈ r.committed)
    (reclaims : r.manager.Reclaims x) : Settled r.history.captures.length x r where
  issued := (inv.committed x committed).2
  active := fun _ => reclaims.active
  length := le_refl _
  captures := by simp

variable {base : Nat}

section

variable (settled : Settled base x r)
include settled

theorem Settled.read : ¬ r.manager.freshReadSnapshot.Excludes x := by
  have issued := settled.issued
  simp only [Unissued, not_or, not_le] at issued
  rintro ⟨-, future | hidden⟩
  · simp only [freshReadSnapshot] at future
    omega
  · rcases Finset.mem_union.mp hidden with running | reserved
    · exact lt_irrefl x (settled.active x running)
    · exact issued.2 reserved

theorem Settled.taken {xid : Nat} (running : xid ∈ r.manager.active) : ¬ (r.manager.snapshot xid).1.Excludes x := by
  have below := settled.active xid running
  rintro ⟨-, future | hidden⟩
  · exact absurd future (not_lt.mpr below.le)
  · rcases Finset.mem_union.mp hidden with other | reserved
    · exact lt_irrefl x (settled.active x (Finset.mem_filter.mp other).1)
    · exact settled.issued (.inr reserved)

theorem Settled.captured (op : ManagerOp) : base ≤ (r.history.apply op).captures.length ∧
      ∀ c ∈ (r.history.apply op).captures.drop base,
        (∀ owner, c.own = some owner → owner ∈ c.active) → ¬ c.snapshot.Excludes x := by
  have extend (new : Capture) (now : (∀ owner, new.own = some owner → owner ∈ new.active) →
      ¬ new.snapshot.Excludes x) :
      base ≤ (r.history.captures ++ [new]).length ∧ ∀ c ∈ (r.history.captures ++ [new]).drop base,
          (∀ owner, c.own = some owner → owner ∈ c.active) → ¬ c.snapshot.Excludes x := by
    refine ⟨settled.length.trans (by simp), fun c member owned => ?_⟩
    rw [drop_append_of_le_length settled.length] at member
    rcases mem_append.mp member with before | last
    · exact settled.captures c before owned
    · rw [mem_singleton.mp last] at owned ⊢
      exact now owned
  cases op with
  | freshReadSnapshot | freshRetainedSnapshot => exact extend _ fun _ => settled.read
  | snapshot xid => exact extend _ fun owned => settled.taken (owned xid rfl)
  | _ => exact ⟨settled.length, settled.captures⟩

theorem Settled.running (op : ManagerOp) : ∀ y ∈ (r.history.apply op).manager.active, x < y := by
  have keeps := apply_keeps r.history op
  cases op with
  | begin =>
    intro y member
    rcases Finset.mem_insert.mp member with rfl | before
    · exact not_le.mp fun reached => settled.issued (.inl reached)
    · exact settled.active y before
  | snapshot xid => exact fun y member => settled.active y ((snapshot_quiet _ xid).active member)
  | dropRetention horizon =>
    exact fun y member => settled.active y ((dropRetention_quiet _ horizon).active member)
  | freshRetainedSnapshot | retainSnapshot => exact settled.active
  | _ => exact fun y member => settled.active y ((keeps trivial).active member)

theorem Settled.apply (inv : r.Inv) {op : ReaderOp} (admitted : r.Admits op) : Settled base x (r.apply op) := by
  obtain ⟨call, history, allowed⟩ : ∃ call, (r.apply op).history = r.history.apply call ∧ r.history.Admits call := by
    cases op with
    | call op => exact ⟨op, rfl, admitted.history⟩
    | dropGuard s => exact ⟨.dropRetention (retentionHorizon s), rfl, trivial⟩
  have captured := settled.captured call
  refine ⟨fun later => settled.issued ?_, ?_, ?_, ?_⟩
  · apply apply_unissued inv.history.wellFormed allowed
    exact history ▸ later
  · simpa only [manager, history] using settled.running call
  · simpa only [history] using captured.1
  · simpa only [history] using captured.2

end

/-- No reader that has to be respected at `r`, and none that comes later, sees a row version that
    `x` has deleted, unless `x` is aborted. -/
def Unread (r after : Readers) (x : Nat) : Prop :=
  ∀ s, r.Needs s ∨ r.CapturesSince after s → ∀ xmin aborted, x ∉ aborted →
    isVisible xmin x s.xid s.inProgress aborted = false

theorem unread_of_reclaims {ops later : List ReaderOp} {after : Readers}
    (run : Run (Guarded (Steps step) Admits) init ops r)
    (rest : Run (Guarded (Steps step) Admits) r later after) (committed : x ∈ r.committed)
    (reclaims : r.manager.Reclaims x) : Unread r after x := by
  have inv : Inv r := run.invariant
    (fun _ _ _ before taken => Option.some.inj taken.2 ▸ before.apply taken.1) Inv.init
  have settled : Inv after ∧ Settled r.history.captures.length x after := by
    apply rest.invariant _ ⟨inv, Settled.now inv committed reclaims⟩
    rintro before op _ ⟨sound, settled⟩ ⟨admitted, taken⟩
    rw [← Option.some.inj taken]
    exact ⟨sound.apply admitted, settled.apply sound admitted⟩
  intro s reader xmin aborted clean
  apply unseen_of_not_excludes (inv.committed x committed).1 _ xmin clean
  rcases reader with needs | ⟨c, captured, rfl, owned⟩
  · exact inv.unneeded reclaims needs
  · exact settled.2.captures c captured owned

/-- A vacuum keeps what a reader needs of the versions whose deleter has committed or is still running. -/
theorem vacuum_respects_readers {ops later : List ReaderOp} {r after : Readers}
    (run : Run (Guarded (Steps step) Admits) init ops r)
    (rest : Run (Guarded (Steps step) Admits) r later after) {x : Nat} (committed : x ∈ r.committed) :
    ((∀ oldest, r.manager.oldestRequiredXid = some oldest → x < oldest) → Unread r after x) ∧
    ∀ (collection : Collection) (retentionXids : Nat), ∀ e ∈ collection.entities,
      e ∉ (vacuumMvccHistory collection (r.manager.mvccVacuumCutoffXid retentionXids)).2.entities →
      e.xmax ∉ r.manager.active ∧ (e.xmax = x → Unread r after x) := by
  constructor
  · intro below
    exact unread_of_reclaims run rest committed (reclaims_of_lt_oldest below)
  · intro collection retentionXids e held gone
    have below := (reclaims_of_vacuumed held gone).2
    have reclaims := reclaims_of_lt_oldest (lt_oldest_of_lt_cutoff below)
    refine ⟨fun running => lt_irrefl _ (reclaims.active running), ?_⟩
    rintro rfl
    exact unread_of_reclaims run rest committed reclaims

/-- Transaction 1 commits, then 2 begins with a snapshot, 3 begins and commits, and a fresh read
    is retained. -/
def deletedBefore : List ReaderOp :=
  [.call .begin, .call (.commit 1), .call .begin, .call (.snapshot 2), .call .begin,
    .call (.commit 3), .call .freshRetainedSnapshot]

theorem vacuum_respects_readers_deleted_before : ∃ r after, Run (Guarded (Steps step) Admits) init deletedBefore r ∧
      Run (Guarded (Steps step) Admits) r [.call .freshReadSnapshot] after ∧
      r.committed = [3, 1] ∧ r.manager.oldestRequiredXid = some 2 ∧ Unread r after 1 ∧
      ∃ s, r.Needs s ∧ s.sees 1 3 = true := by
  obtain ⟨r, run, final⟩ := execute_reaches step Admits init deletedBefore
    (fun r => decide (r.committed = [3, 1] ∧ r.manager.oldestRequiredXid = some 2 ∧
      r.manager.active = {2} ∧ ∃ c ∈ r.history.captures, c.own = some 2 ∧ 2 ∈ c.active ∧
        c.snapshot.sees 1 3 = true)) (by decide)
  obtain ⟨committed, horizon, active, c, member, own, owner, sees⟩ := of_decide_eq_true final
  have rest : Run (Guarded (Steps step) Admits) r [.call .freshReadSnapshot]
      (r.apply (.call .freshReadSnapshot)) := .single ⟨trivial, rfl⟩
  have known : 1 ∈ r.committed := by simp [committed]
  refine ⟨r, _, run, rest, committed, horizon, ?_, c.snapshot, .inl ⟨c, member, rfl, 2, owner, own, ?_⟩, sees⟩
  · apply (vacuum_respects_readers run rest known).1
    intro oldest least
    have two : 2 = oldest := Option.some.inj (horizon.symm.trans least)
    omega
  · simp [active]

end Readers

def RowVersion.entity (v : RowVersion) : Entity :=
  { id := v.id, logicalId := v.logicalId, tableRow := true, xmin := v.xmin, xmax := v.xmax }

/-- Connection 0 inserts row `t`/1 and commits; connections 1 and 2 delete it and both roll back. The second
    rollback puts back the stamp it found, that of the first transaction. -/
def deletedTwice : List RowEvent :=
  [.session (.begin 0 .snapshotIsolation), .session (.register 0), .session (.takeSnapshot 0), .insert 0 "t",
    .check 0, .publish 0 true, .retire 0,
    .session (.begin 1 .snapshotIsolation), .session (.register 1), .session (.takeSnapshot 1),
    .session (.begin 2 .snapshotIsolation), .session (.register 2), .session (.takeSnapshot 2),
    .delete 1 "t" 1, .delete 2 "t" 1, .rollback 1, .retire 1, .rollback 2, .retire 2]

/-- The row is live for a fresh read, and the vacuum takes it. -/
theorem live_row_vacuumed : ∃ s, Run (Steps RowSystem.step) .init deletedTwice s ∧
    ∃ collection : Collection, collection.entities = s.store.map RowVersion.entity ∧
      ∃ e ∈ collection.entities,
        e ∉ (vacuumMvccHistory collection (s.core.manager.mvccVacuumCutoffXid 0)).2.entities ∧
        isVisible e.xmin e.xmax s.core.manager.freshReadSnapshot.xid s.core.manager.freshReadSnapshot.inProgress
          s.core.manager.aborted = true := by
  obtain ⟨s, run, observed⟩ := execute_reaches RowSystem.step (fun _ _ => True) .init deletedTwice
    (fun s => decide (s.store = [⟨"t", 1, 1, 1, 2⟩] ∧ s.core.manager.mvccVacuumCutoffXid 0 = 4 ∧
      isVisible 1 2 s.core.manager.freshReadSnapshot.xid s.core.manager.freshReadSnapshot.inProgress
        s.core.manager.aborted = true)) (by decide +kernel)
  obtain ⟨stored, cutoff, visible⟩ := of_decide_eq_true observed
  refine ⟨s, run.mono fun _ _ _ => And.right, ⟨[⟨1, 1, true, 1, 2⟩], by decide⟩, by rw [stored]; rfl,
    ⟨1, 1, true, 1, 2⟩, mem_cons_self, ?_, visible⟩
  rw [cutoff]
  decide

end RedDB.Transaction
