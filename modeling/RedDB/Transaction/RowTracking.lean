import RedDB.Transaction.RowVersions
import RedDB.Transaction.Savepoint

namespace RedDB.Transaction

open List Library SnapshotManager WriteSet Session

def Session.txn : Session → Option TxnContext
  | .idle | .allocated _ _ | .registered _ _ => none
  | .running context | .retiring _ context _ => some context

variable {x : Nat}

theorem Session.parent_mem_owned {σ : Session} (parent : σ.parent = some x) : x ∈ σ.owned := by
  rcases σ with _ | _ | _ | context | ⟨goal, context, pending⟩
  case retiring =>
    cases parent
    cases goal <;> simp [owned, TxnContext.retireOrder]
  all_goals cases parent
  all_goals simp [owned, TxnContext.retireOrder]

def Detached (s : System) (x : Nat) : Prop := ¬ s.manager.Unissued x ∧ ∀ conn, x ∉ (s.session conn).surviving

theorem Settled.detached {s : System} (settled : Settled s x) : Detached s x :=
  ⟨settled.issued, fun conn survives => settled.free conn ((s.session conn).surviving_subset survives)⟩

structure System.Carries (s t : System) : Prop where
  detached : ∀ x, Detached s x → Detached t x
  captures : s.captures <+: t.captures
  committed : s.committed ⊆ t.committed

theorem System.Effect.carries {s t : System} {e : Event} (ok : s.manager.WellFormed)
    (bound : s.CounterBelowMax e) (effect : System.Effect s e t) : s.Carries t where
  detached := by
    rintro x ⟨issued, free⟩
    refine ⟨fun later => issued (effect.unissued ok bound later), fun conn survives => ?_⟩
    rcases effect.inherits ok bound conn x survives with fresh | ⟨before, -⟩
    · exact issued fresh
    · exact free conn before
  captures := by
    cases effect with
    | takeSnapshot | capture => exact prefix_append _ _
    | @finish conn xid goal context found =>
      cases goal with
      | commit | rollback | resume => exact prefix_refl _
    | begin | register | savepoint | write | release | rollbackTo | retireAll | retire | autocommit | observe
    | unchanged => exact prefix_refl _
  committed := by
    cases effect with
    | @finish conn xid goal context found =>
      cases goal with
      | commit => exact subset_append_left _ _
      | rollback | resume => exact List.Subset.refl _
    | takeSnapshot | capture | begin | register | savepoint | write | release | rollbackTo | retireAll | retire
    | autocommit | observe | unchanged => exact List.Subset.refl _

/-- Where the version that `stamp` is on comes from: the transaction itself, in no savepoint opened after
    the stamp, or a transaction that had ended and that a fixed snapshot shows. -/
def Origin (s : System) (context : TxnContext) (stamp xmin : Nat) : Prop :=
  (xmin ∈ context.retireOrder ∧ ∀ savepoint ∈ context.savepoints, stamp < savepoint.2 → xmin < savepoint.2) ∨
    Detached s xmin ∧ (context.isolation ≠ .readCommitted → ¬ context.snapshot.Excludes xmin)

def Installed (store : RowStore) (u : PendingUpdate) : Prop :=
  ∃ v ∈ store, v.collection = u.collection ∧ v.id = u.newId ∧ v.logicalId = u.logicalId ∧ v.xmin = u.xid

structure Tracked (s : System) (store : RowStore) (conn : Nat) (w : WriteSet) : Prop where
  quiet : (s.session conn).txn = none → w = .empty
  stamps : ∀ p ∈ w.stamps, p.xid ∈ (s.session conn).surviving
  captured : ∀ context, (s.session conn).txn = some context → (some context.xid, context.snapshot) ∈ s.captures
  ordered : ∀ context, (s.session conn).txn = some context →
    context.savepoints.Pairwise fun outer inner => outer.2 < inner.2
  versions : ∀ context, (s.session conn).txn = some context → ∀ p ∈ w.stamps, ∃ v ∈ store,
    v.collection = p.collection ∧ v.id = p.id ∧ v.logicalId = p.logicalId ∧ Origin s context p.xid v.xmin
  installed : ∀ u ∈ w.updates, Installed store u

/-- A finished commit: no snapshot taken before its end shows any of its ids, and its writes stand. -/
structure Finished (s : System) (store : RowStore) (a : RowCommit) : Prop where
  committed : a.done ∈ s.committed
  early : a.done.capturesBefore ≤ s.captures.length
  excluded : ∀ c ∈ s.captures.take a.done.capturesBefore, c.1 ≠ some a.done.context.xid →
    ∀ x ∈ a.done.context.retireOrder, c.2.Excludes x
  stamps : ∀ p ∈ a.writes.stamps, p.xid ∈ a.done.context.retireOrder
  installed : ∀ u ∈ a.writes.updates, Installed store u
  deleted : ∀ t ∈ a.writes.tombstones, ∃ v ∈ store, v.collection = t.collection ∧ v.id = t.id ∧
    v.logicalId = t.logicalId ∧ Detached s v.xmin ∧ v.xmax ∈ a.done.context.retireOrder

variable {w : WriteSet}

theorem WriteSet.mem_stamps_of_update {u : PendingUpdate} (member : u ∈ w.updates) :
    ⟨u.collection, u.oldId, u.logicalId, u.xid, u.previousXmax⟩ ∈ w.stamps :=
  mem_append_left _ (mem_map_of_mem member)

variable {p : PendingTombstone}

theorem WriteSet.mem_stamps_update {u : PendingUpdate}
    (member : p ∈ WriteSet.stamps { w with updates := w.updates ++ [u] }) :
    p ∈ w.stamps ∨ p = ⟨u.collection, u.oldId, u.logicalId, u.xid, u.previousXmax⟩ := by
  simp only [WriteSet.stamps, map_append, map_cons, map_nil, mem_append, mem_singleton] at member ⊢
  tauto

theorem WriteSet.mem_stamps_tombstone {d : PendingTombstone}
    (member : p ∈ WriteSet.stamps { w with tombstones := w.tombstones ++ [d] }) : p ∈ w.stamps ∨ p = d := by
  simp only [WriteSet.stamps, mem_append, mem_singleton] at member ⊢
  tauto

theorem WriteSet.mem_stamps_filter {keep : Nat → Bool} (member : p ∈ (w.filter keep).stamps) :
    p ∈ w.stamps ∧ keep p.xid = true := by
  rcases mem_append.mp member with updated | deleted
  · obtain ⟨u, kept, rfl⟩ := mem_map.mp updated
    obtain ⟨member, keep⟩ := mem_filter.mp kept
    exact ⟨mem_stamps_of_update member, keep⟩
  · obtain ⟨member, keep⟩ := mem_filter.mp deleted
    exact ⟨mem_append_right _ member, keep⟩

theorem WriteSet.eq_empty (none : ∀ p, p ∉ w.stamps) : w = .empty := by
  obtain ⟨updates, tombstones⟩ := w
  cases updates with
  | cons u rest => exact absurd (mem_stamps_of_update mem_cons_self) (none _)
  | nil =>
    cases tombstones with
    | cons d rest => exact absurd (mem_append_right _ mem_cons_self) (none d)
    | nil => rfl

def WriteSet.Meets (w w' : WriteSet) : Prop := ∃ row ∈ w.rows, row ∈ w'.rows

instance (w w' : WriteSet) : Decidable (w.Meets w') := inferInstanceAs (Decidable (∃ _ ∈ _, _))

theorem WriteSet.Meets.symm {w' : WriteSet} (meets : w.Meets w') : w'.Meets w := by
  obtain ⟨row, first, second⟩ := meets
  exact ⟨row, second, first⟩

theorem Session.surviving_of_stamp {σ : Session} {context : TxnContext} (txn : σ.txn = some context)
    (stamp : x ∈ σ.surviving) : σ.surviving = context.retireOrder := by
  rcases σ with _ | _ | _ | running | ⟨goal, retiring, pending⟩
  case running =>
    cases txn
    rfl
  case retiring =>
    cases txn
    cases goal with
    | rollback => exact absurd stamp not_mem_nil
    | commit | resume => rfl
  all_goals cases txn

section

variable {s t : System} {store after : RowStore} {mine : Nat → Prop} {touched : String → Nat → Prop}

variable {context : TxnContext}

theorem Origin.carry (carries : s.Carries t) {stamp xmin : Nat}
    (origin : Origin s context stamp xmin) : Origin t context stamp xmin :=
  origin.imp_right (And.imp_left (carries.detached xmin))

theorem Installed.frame (frame : RowStore.Frame mine touched store after) {u : PendingUpdate}
    (installed : Installed store u) (foreign : ¬ mine u.xid) : Installed after u := by
  obtain ⟨v, member, collection, id, row, created⟩ := installed
  obtain ⟨w, later, same, -⟩ := frame.kept v member (created ▸ foreign)
  exact ⟨w, later, same.collection.trans collection, same.id.trans id, same.logicalId.trans row,
    same.xmin.trans created⟩

variable {conn : Nat} {w : WriteSet}

section

variable (tracked : Tracked s store conn w)
include tracked

theorem Tracked.version (foreign : ∀ x, mine x → x ∉ (s.session conn).surviving ∧ ¬ Detached s x)
    (txn : (s.session conn).txn = some context) {p : PendingTombstone} (member : p ∈ w.stamps) :
    ∃ v ∈ store, v.collection = p.collection ∧ v.id = p.id ∧ v.logicalId = p.logicalId ∧
      Origin s context p.xid v.xmin ∧ ¬ mine v.xmin := by
  obtain ⟨v, stored, collection, id, row, origin⟩ := tracked.versions context txn p member
  refine ⟨v, stored, collection, id, row, origin, fun own => ?_⟩
  rcases origin with ⟨created, -⟩ | ⟨detached, -⟩
  · exact (foreign _ own).1 (surviving_of_stamp txn (tracked.stamps p member) ▸ created)
  · exact (foreign _ own).2 detached

theorem Tracked.frame (carries : s.Carries t) (txn : (t.session conn).txn = (s.session conn).txn)
    (surviving : (s.session conn).surviving ⊆ (t.session conn).surviving)
    (frame : RowStore.Frame mine touched store after)
    (foreign : ∀ x, mine x → x ∉ (s.session conn).surviving ∧ ¬ Detached s x) :
    Tracked t after conn w where
  quiet := txn ▸ tracked.quiet
  stamps := fun p member => surviving (tracked.stamps p member)
  captured := by
    rw [txn]
    exact fun context found => carries.captures.subset (tracked.captured context found)
  ordered := txn ▸ tracked.ordered
  versions := by
    rw [txn]
    intro context found p member
    obtain ⟨v, before, collection, id, row, origin, other⟩ := tracked.version foreign found member
    obtain ⟨kept, later, same, -⟩ := frame.kept v before other
    refine ⟨kept, later, same.collection.trans collection, same.id.trans id, same.logicalId.trans row, ?_⟩
    rw [same.xmin]
    exact origin.carry carries
  installed := by
    intro u member
    refine (tracked.installed u member).frame frame fun own => ?_
    exact (foreign _ own).1 (tracked.stamps _ (mem_stamps_of_update member))

theorem Tracked.carry (carries : s.Carries t) (txn : (t.session conn).txn = (s.session conn).txn)
    (surviving : (s.session conn).surviving ⊆ (t.session conn).surviving) : Tracked t store conn w := by
  have frame : RowStore.Frame (fun _ => False) (fun _ _ => False) store store := .refl store
  exact tracked.frame carries txn surviving frame fun _ none => none.elim

end

theorem Tracked.empty
    (captured : ∀ context, (t.session conn).txn = some context → (some context.xid, context.snapshot) ∈ t.captures)
    (ordered : ∀ context, (t.session conn).txn = some context →
      context.savepoints.Pairwise fun outer inner => outer.2 < inner.2) : Tracked t store conn .empty where
  quiet := fun _ => rfl
  stamps := fun _ member => absurd member not_mem_nil
  captured := captured
  ordered := ordered
  versions := fun _ _ _ member => absurd member not_mem_nil
  installed := fun _ member => absurd member not_mem_nil

theorem Tracked.savepoints (tracked : Tracked s store conn w) (carries : s.Carries t)
    {left : TxnContext} (found : s.session conn = .running context)
    (found' : t.session conn = .running left) (xid : left.xid = context.xid)
    (snapshot : left.snapshot = context.snapshot) (isolation : left.isolation = context.isolation)
    (ids : context.retireOrder ⊆ left.retireOrder)
    (ordered : left.savepoints.Pairwise fun outer inner => outer.2 < inner.2)
    (above : ∀ savepoint ∈ left.savepoints,
      savepoint ∈ context.savepoints ∨ ∀ x ∈ context.retireOrder, x < savepoint.2) :
    Tracked t store conn w := by
  have txn : (s.session conn).txn = some context := by rw [found]; rfl
  have surviving : (s.session conn).surviving = context.retireOrder := by rw [found]; rfl
  have txn' {other : TxnContext} (known : (t.session conn).txn = some other) : left = other := by
    rw [found'] at known
    exact Option.some.inj known
  refine ⟨fun none => ?_, fun p member => ?_, fun other known => ?_, fun other known => ?_,
    fun other known p member => ?_, tracked.installed⟩
  · rw [found'] at none
    cases none
  · rw [found']
    exact ids (surviving ▸ tracked.stamps p member)
  · rw [← txn' known, xid, snapshot]
    exact carries.captures.subset (tracked.captured context txn)
  · rw [← txn' known]
    exact ordered
  · obtain ⟨v, stored, collection, id, row, origin⟩ := tracked.versions context txn p member
    refine ⟨v, stored, collection, id, row, ?_⟩
    rw [← txn' known]
    rcases origin with ⟨created, inner⟩ | ⟨detached, seen⟩
    · refine .inl ⟨ids created, fun savepoint opened later => ?_⟩
      rcases above savepoint opened with before | above
      · exact inner savepoint before later
      · exact above _ created
    · rw [Origin, isolation, snapshot]
      exact .inr ⟨carries.detached _ detached, seen⟩

theorem Tracked.write {more : WriteSet} (tracked : Tracked s store conn w)
    (running : s.session conn = .running context) {p : PendingTombstone} (writer : p.xid = context.writerXid)
    (adds : ∀ q ∈ more.stamps, q ∈ w.stamps ∨ q = p) (installed : ∀ u ∈ more.updates, Installed store u)
    {v : RowVersion} (stored : v ∈ store) (collection : v.collection = p.collection) (id : v.id = p.id)
    (row : v.logicalId = p.logicalId)
    (seen : v.xmin ∈ context.retireOrder ∨
      Detached s v.xmin ∧ (context.isolation ≠ .readCommitted → ¬ context.snapshot.Excludes v.xmin)) :
    Tracked s store conn more := by
  have txn : (s.session conn).txn = some context := by rw [running]; rfl
  refine ⟨fun none => ?_, fun q member => ?_, tracked.captured, tracked.ordered, fun other known q member => ?_,
    installed⟩
  · rw [txn] at none
    cases none
  · rcases adds q member with before | rfl
    · exact tracked.stamps q before
    · rw [running, writer]
      exact context.writerXid_mem
  · rcases adds q member with before | rfl
    · exact tracked.versions other known q before
    · rw [txn] at known
      cases known
      refine ⟨v, stored, collection, id, row, seen.imp_left fun created => ⟨created, fun savepoint opened inner => ?_⟩⟩
      have outer := TxnContext.le_writerXid (tracked.ordered context txn) opened
      omega

theorem take_of_beginning {α : Type} {l l' : List α} (longer : l <+: l') {n : Nat} (bound : n ≤ l.length) :
    l'.take n = l.take n := by
  obtain ⟨rest, rfl⟩ := longer
  exact take_append_of_le_length bound

theorem Finished.frame {a : RowCommit} (finished : Finished s store a) (owns : Owns s) (carries : s.Carries t)
    (frame : RowStore.Frame mine touched store after)
    (foreign : ∀ x, mine x → ¬ Detached s x)
    (untouched : ∀ d ∈ a.writes.tombstones, ¬ touched d.collection d.id) : Finished t after a where
  committed := carries.committed finished.committed
  early := finished.early.trans carries.captures.length_le
  excluded := by
    rw [take_of_beginning carries.captures finished.early]
    exact finished.excluded
  stamps := finished.stamps
  installed := by
    intro u member
    refine (finished.installed u member).frame frame fun own => foreign _ own ?_
    exact (owns.settled a.done finished.committed _ (finished.stamps _ (mem_stamps_of_update member))).detached
  deleted := by
    intro d member
    obtain ⟨v, before, collection, id, row, detached, stamped⟩ := finished.deleted d member
    obtain ⟨w, later, same, stamp⟩ := frame.kept v before fun own => foreign _ own detached
    refine ⟨w, later, same.collection.trans collection, same.id.trans id, same.logicalId.trans row, ?_, ?_⟩
    · rw [same.xmin]
      exact carries.detached _ detached
    · rcases stamp with stamp | own | changed
      · rwa [stamp]
      · exact absurd (owns.settled a.done finished.committed _ stamped).detached (foreign _ own)
      · rw [collection, id] at changed
        exact absurd changed (untouched d member)

end

variable {rollback : RollbackToSavepoint} {name : String}

variable {context left : TxnContext}

theorem TxnContext.rollbackToSavepoint_first
    (ordered : context.savepoints.Pairwise fun outer inner => outer.2 < inner.2)
    (split : context.rollbackToSavepoint name = .ok (rollback, left)) :
    (∃ savepoint ∈ context.savepoints, savepoint.2 = rollback.savepointXid) ∧
      ∀ x ∈ rollback.abortedXids, rollback.savepointXid ≤ x := by
  unfold TxnContext.rollbackToSavepoint at split
  cases first : context.fromFirst name with
  | nil => simp [first] at split
  | cons savepoint inner =>
    simp only [first, Except.ok.injEq, Prod.mk.injEq] at split
    obtain ⟨rfl, -⟩ := split
    have within : (savepoint :: inner).Sublist context.savepoints := first ▸ dropWhile_sublist _
    refine ⟨⟨savepoint, within.subset mem_cons_self, rfl⟩, fun x aborted => ?_⟩
    rcases mem_cons.mp aborted with rfl | later
    · exact le_rfl
    · obtain ⟨opened, member, rfl⟩ := mem_map.mp later
      exact ((pairwise_cons.mp (ordered.sublist within)).1 opened member).le

theorem Tracked.rollbackTo {conn : Nat} {core resumed : System} {store after : RowStore} {w : WriteSet}
    {aborted : List Nat} {touched : String → Nat → Prop}
    (tracked : Tracked core store conn w) (carries : core.Carries resumed)
    (found : core.session conn = .running context)
    (found' : resumed.session conn = .retiring .resume left aborted)
    (split : context.rollbackToSavepoint name = .ok (rollback, left))
    (frame : RowStore.Frame (fun x => x ∈ context.retireOrder ∧ rollback.savepointXid ≤ x) touched store after) :
    Tracked resumed after conn (w.filter (· < rollback.savepointXid)) := by
  have txn : (core.session conn).txn = some context := by rw [found]; rfl
  have txn' {other : TxnContext} (known : (resumed.session conn).txn = some other) : left = other := by
    rw [found'] at known
    exact Option.some.inj known
  obtain ⟨⟨savepoint, opened, first⟩, above⟩ := TxnContext.rollbackToSavepoint_first (tracked.ordered context txn) split
  have perm := TxnContext.rollbackToSavepoint_retireOrder split
  obtain ⟨-, -, rest⟩ := TxnContext.rollbackToSavepoint_ok split
  have below : left.savepoints <+: context.savepoints := rest ▸ takeWhile_prefix _
  have stays {x : Nat} (own : x ∈ context.retireOrder) (earlier : x < rollback.savepointXid) :
      x ∈ left.retireOrder := by
    refine (mem_append.mp (perm.symm.subset own)).resolve_right fun gone => ?_
    exact absurd (above x gone) earlier.not_ge
  refine ⟨fun none => ?_, fun p member => ?_, fun other known => ?_, fun other known => ?_,
    fun other known p member => ?_, fun u member => ?_⟩
  · rw [found'] at none
    cases none
  · obtain ⟨before, earlier⟩ := mem_stamps_filter member
    have own := tracked.stamps p before
    rw [found] at own
    rw [found']
    exact stays own (of_decide_eq_true earlier)
  · rw [← txn' known, rest]
    exact carries.captures.subset (tracked.captured context txn)
  · rw [← txn' known]
    exact (tracked.ordered context txn).sublist below.sublist
  · obtain ⟨before, earlier⟩ := mem_stamps_filter member
    have earlier : p.xid < rollback.savepointXid := of_decide_eq_true earlier
    obtain ⟨v, stored, collection, id, row, origin⟩ := tracked.versions context txn p before
    have older (own : v.xmin ∈ context.retireOrder) : v.xmin < rollback.savepointXid := by
      rcases origin with ⟨-, inner⟩ | ⟨detached, -⟩
      · exact first ▸ inner savepoint opened (first ▸ earlier)
      · refine absurd own ?_
        have free := detached.2 conn
        rwa [found] at free
    obtain ⟨kept, later, same, -⟩ := frame.kept v stored fun mine => absurd (older mine.1) mine.2.not_gt
    refine ⟨kept, later, same.collection.trans collection, same.id.trans id, same.logicalId.trans row, ?_⟩
    rw [same.xmin, ← txn' known]
    rcases origin with ⟨created, inner⟩ | ⟨detached, seen⟩
    · exact .inl ⟨stays created (older created), fun open' member => inner open' (below.subset member)⟩
    · rw [Origin, rest]
      exact .inr ⟨carries.detached _ detached, seen⟩
  · obtain ⟨before, earlier⟩ := mem_filter.mp member
    exact (tracked.installed u before).frame frame fun mine => absurd (of_decide_eq_true earlier) mine.2.not_gt

end RedDB.Transaction
