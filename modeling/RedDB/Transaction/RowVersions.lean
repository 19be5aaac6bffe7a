import RedDB.Library.Program
import RedDB.Transaction.RowCommit

namespace RedDB.Transaction

open List Library

structure RowVersion.Same (v w : RowVersion) : Prop where
  collection : w.collection = v.collection
  id : w.id = v.id
  logicalId : w.logicalId = v.logicalId
  xmin : w.xmin = v.xmin

theorem RowVersion.Same.refl (v : RowVersion) : v.Same v := ⟨rfl, rfl, rfl, rfl⟩

theorem RowVersion.Same.trans {u v w : RowVersion} (first : u.Same v) (second : v.Same w) : u.Same w :=
  ⟨second.collection.trans first.collection, second.id.trans first.id,
    second.logicalId.trans first.logicalId, second.xmin.trans first.xmin⟩

namespace RowStore

structure WellFormed (store : RowStore) (nextId : Nat) : Prop where
  unique : (store.map fun v => (v.collection, v.id)).Nodup
  bounded : ∀ v ∈ store, v.id < nextId

variable {store : RowStore} {v : RowVersion}

theorem WellFormed.eq_of_id {nextId : Nat} (ok : store.WellFormed nextId)
    {w : RowVersion} (first : v ∈ store) (second : w ∈ store) (collection : w.collection = v.collection)
    (id : w.id = v.id) : v = w :=
  inj_on_of_nodup_map ok.unique first second (by rw [collection, id])

theorem WellFormed.get?_of_mem {nextId : Nat} (ok : store.WellFormed nextId)
    (member : v ∈ store) : store.get? v.collection v.id = some v := by
  cases found : store.get? v.collection v.id with
  | none =>
    have absent := find?_eq_none.mp found v member
    simp at absent
  | some w =>
    have here : w.collection = v.collection ∧ w.id = v.id := by simpa using find?_some found
    rw [ok.eq_of_id member (mem_of_find?_eq_some found) here.1 here.2]

theorem get?_mem {collection : String} {id : Nat}
    (found : store.get? collection id = some v) : v ∈ store ∧ v.collection = collection ∧ v.id = id :=
  ⟨mem_of_find?_eq_some found, by simpa using find?_some found⟩

/-- What becomes of the versions that the ids in `mine` have not created: they stay, and a stamp on
    them stays unless it is one of `mine` or the version is `touched`. -/
structure Frame (mine : Nat → Prop) (touched : String → Nat → Prop) (before after : RowStore) : Prop where
  kept : ∀ v ∈ before, ¬ mine v.xmin → ∃ w ∈ after, v.Same w ∧
    (w.xmax = v.xmax ∨ mine v.xmax ∨ touched v.collection v.id)

section

variable {mine : Nat → Prop} {touched : String → Nat → Prop} {first second third : RowStore}

theorem Frame.refl (store : RowStore) : Frame mine touched store store :=
  ⟨fun v member _ => ⟨v, member, .refl v, .inl rfl⟩⟩

theorem Frame.trans (one : Frame mine touched first second) (two : Frame mine touched second third) :
    Frame mine touched first third := by
  refine ⟨fun u member foreign => ?_⟩
  obtain ⟨v, there, same, stamp⟩ := one.kept u member foreign
  obtain ⟨w, later, same', stamp'⟩ := two.kept v there (same.xmin ▸ foreign)
  refine ⟨w, later, same.trans same', ?_⟩
  rw [same.collection, same.id] at stamp'
  rcases stamp with stamp | changed
  · rwa [stamp] at stamp'
  · exact .inr changed

theorem Frame.mono {more : Nat → Prop} (frame : Frame mine touched first second) (wider : ∀ x, mine x → more x) :
    Frame more touched first second := by
  refine ⟨fun v member foreign => ?_⟩
  obtain ⟨w, later, same, stamp⟩ := frame.kept v member (foreign ∘ wider _)
  exact ⟨w, later, same, stamp.imp_right (Or.imp_left (wider _))⟩

theorem Frame.append (frame : Frame mine touched first second) (new : List RowVersion) :
    Frame mine touched first (second ++ new) := by
  refine ⟨fun v member foreign => ?_⟩
  obtain ⟨w, later, rest⟩ := frame.kept v member foreign
  exact ⟨w, mem_append_left _ later, rest⟩

end

variable {store : RowStore}

theorem mem_setXmax {collection : String} {id : Nat} {f : Nat → Nat} {w : RowVersion}
    (member : w ∈ store.setXmax collection id f) :
    ∃ v ∈ store, v.Same w ∧ ((v.collection = collection ∧ v.id = id ∧ w.xmax = f v.xmax) ∨ w = v) := by
  obtain ⟨v, before, rfl⟩ := mem_map.mp member
  refine ⟨v, before, ?_⟩
  split_ifs with here
  · exact ⟨⟨rfl, rfl, rfl, rfl⟩, .inl ⟨here.1, here.2, rfl⟩⟩
  · exact ⟨.refl v, .inr rfl⟩

theorem setXmax_mem {v : RowVersion} (member : v ∈ store) (collection : String) (id : Nat)
    (f : Nat → Nat) : ∃ w ∈ store.setXmax collection id f, v.Same w ∧
      w.xmax = if v.collection = collection ∧ v.id = id then f v.xmax else v.xmax := by
  refine ⟨_, mem_map_of_mem member, ?_⟩
  split_ifs
  · exact ⟨⟨rfl, rfl, rfl, rfl⟩, rfl⟩
  · exact ⟨.refl v, rfl⟩

theorem setXmax_frame {mine : Nat → Prop} {touched : String → Nat → Prop} (store : RowStore)
    (collection : String) (id : Nat) {f : Nat → Nat}
    (allowed : touched collection id ∨ ∀ x, ¬ mine x → f x = x) :
    Frame mine touched store (store.setXmax collection id f) := by
  refine ⟨fun v member _ => ?_⟩
  obtain ⟨w, later, same, stamp⟩ := setXmax_mem member collection id f
  refine ⟨w, later, same, ?_⟩
  split_ifs at stamp with here
  · rcases allowed with here' | keeps
    · exact .inr (.inr (by rwa [here.1, here.2]))
    · by_cases own : mine v.xmax
      · exact .inr (.inl own)
      · exact .inl (stamp.trans (keeps _ own))
  · exact .inl stamp

theorem setXmax_keys (store : RowStore) (collection : String) (id : Nat) (f : Nat → Nat) :
    (store.setXmax collection id f).map (fun v => (v.collection, v.id)) =
      store.map fun v => (v.collection, v.id) := by
  rw [setXmax, map_map]
  refine map_congr_left fun v _ => ?_
  simp only [Function.comp_apply]
  split_ifs <;> rfl

variable {nextId : Nat}

section

variable (ok : store.WellFormed nextId)
include ok

theorem WellFormed.setXmax
    (collection : String) (id : Nat) (f : Nat → Nat) : (store.setXmax collection id f).WellFormed nextId := by
  refine ⟨?_, fun w member => ?_⟩
  · rw [setXmax_keys]
    exact ok.unique
  · obtain ⟨v, before, same, -⟩ := mem_setXmax member
    rw [same.id]
    exact ok.bounded v before

theorem WellFormed.filter (keep : RowVersion → Bool) : RowStore.WellFormed (store.filter keep) nextId :=
  ⟨ok.unique.sublist (filter_sublist.map _), fun v member => ok.bounded v (mem_filter.mp member).1⟩

theorem WellFormed.append (collection : String) (logicalId xmin xmax : Nat) :
    RowStore.WellFormed (store ++ [⟨collection, nextId, logicalId, xmin, xmax⟩]) (nextId + 1) := by
  refine ⟨?_, fun v member => ?_⟩
  · rw [map_append, nodup_append]
    refine ⟨ok.unique, nodup_singleton _, ?_⟩
    intro key before other new same
    obtain ⟨v, member, rfl⟩ := mem_map.mp before
    have bound := ok.bounded v member
    simp only [map_cons, map_nil, mem_singleton] at new
    rw [new, Prod.mk.injEq] at same
    omega
  · rcases mem_append.mp member with before | new
    · exact (ok.bounded v before).trans (Nat.lt_succ_self _)
    · rw [mem_singleton.mp new]
      exact Nat.lt_succ_self _

end

/-- Every version of `after` was there before. -/
def Shrinks (before after : RowStore) : Prop := ∀ w ∈ after, ∃ v ∈ before, v.Same w

section

variable {mine : Nat → Prop} {touched : String → Nat → Prop} {nextId : Nat}

theorem unstamp_frame (store : RowStore) (collection : String) (id : Nat) {xid : Nat} (previousXmax : Nat)
    (own : mine xid) : Frame mine touched store (store.unstamp collection id xid previousXmax) := by
  refine setXmax_frame store collection id (.inr fun x foreign => ?_)
  have other : x ≠ xid := fun same => foreign (same ▸ own)
  exact if_neg other

theorem unstamp_shrinks (store : RowStore) (collection : String) (id xid previousXmax : Nat) :
    Shrinks store (store.unstamp collection id xid previousXmax) := by
  intro w member
  obtain ⟨v, before, same, -⟩ := mem_setXmax member
  exact ⟨v, before, same⟩

variable {store : RowStore}

theorem reviveVersionedUpdate_frame {u : PendingUpdate} (own : mine u.xid)
    (created : ∀ v ∈ store, v.collection = u.collection → v.id = u.newId → mine v.xmin) :
    Frame mine touched store (store.reviveVersionedUpdate u) := by
  refine Frame.trans ⟨fun v member foreign => ⟨v, mem_filter.mpr ⟨member, ?_⟩, .refl v, .inl rfl⟩⟩
    (unstamp_frame _ u.collection u.oldId u.previousXmax own)
  rw [decide_eq_true_iff]
  exact fun here => foreign (created v member here.1 here.2)

theorem reviveVersionedUpdate_shrinks (store : RowStore) (u : PendingUpdate) :
    Shrinks store (store.reviveVersionedUpdate u) := by
  intro w member
  obtain ⟨v, left, same⟩ := unstamp_shrinks _ _ _ _ _ w member
  exact ⟨v, (mem_filter.mp left).1, same⟩

theorem Shrinks.trans {first second third : RowStore} (one : Shrinks first second)
    (two : Shrinks second third) : Shrinks first third := by
  intro w member
  obtain ⟨v, there, same⟩ := two w member
  obtain ⟨u, before, same'⟩ := one v there
  exact ⟨u, before, same'.trans same⟩

theorem revive_frame {w : WriteSet} (own : ∀ p ∈ w.stamps, mine p.xid)
    (created : ∀ u ∈ w.updates, ∀ v ∈ store, v.collection = u.collection → v.id = u.newId → mine v.xmin) :
    Frame mine touched store (store.revive w) ∧ Shrinks store (store.revive w) := by
  have updated : Frame mine touched store (store.reviveVersionedUpdates w.updates) ∧
      Shrinks store (store.reviveVersionedUpdates w.updates) := by
    refine List.foldlRecOn (motive := fun after => Frame mine touched store after ∧ Shrinks store after) _ _
      ⟨.refl store, fun v member => ⟨v, member, .refl v⟩⟩ ?_
    rintro after ⟨frame, shrinks⟩ u listed
    have listed : u ∈ w.updates := mem_reverse.mp listed
    refine ⟨frame.trans (reviveVersionedUpdate_frame ?_ fun v member collection id => ?_),
      shrinks.trans (reviveVersionedUpdate_shrinks after u)⟩
    · exact own _ (mem_append_left _ (mem_map_of_mem listed))
    · obtain ⟨before, there, same⟩ := shrinks v member
      rw [same.xmin]
      exact created u listed before there (same.collection ▸ collection) (same.id ▸ id)
  refine List.foldlRecOn (motive := fun after => Frame mine touched store after ∧ Shrinks store after) _ _ updated ?_
  rintro after ⟨frame, shrinks⟩ t listed
  exact ⟨frame.trans (unstamp_frame after _ _ _ (own t (mem_append_right _ listed))),
    shrinks.trans (unstamp_shrinks after _ _ _ _)⟩

section

variable (ok : store.WellFormed nextId)
include ok

theorem WellFormed.reviveVersionedUpdate (u : PendingUpdate) : (store.reviveVersionedUpdate u).WellFormed nextId := by
  unfold RowStore.reviveVersionedUpdate unstamp
  exact (ok.filter _).setXmax _ _ _

theorem WellFormed.revive (w : WriteSet) : (store.revive w).WellFormed nextId := by
  have updated : (store.reviveVersionedUpdates w.updates).WellFormed nextId :=
    List.foldlRecOn (motive := (WellFormed · nextId)) _ _ ok fun _ before u _ =>
      before.reviveVersionedUpdate u
  exact List.foldlRecOn (motive := (WellFormed · nextId)) _ _ updated fun _ before _ _ => before.setXmax _ _ _

theorem WellFormed.restore (w : WriteSet) : (store.restorePendingWriteStamps w).WellFormed nextId :=
  List.foldlRecOn (motive := (WellFormed · nextId)) _ _ ok fun _ before _ _ => before.setXmax _ _ _

end

theorem restore_frame {w : WriteSet} (covers : ∀ p ∈ w.stamps, touched p.collection p.id) :
    Frame mine touched store (store.restorePendingWriteStamps w) :=
  List.foldlRecOn (motive := Frame mine touched store) _ _ (.refl store) fun after frame p listed =>
    frame.trans (setXmax_frame after _ _ (.inl (covers p listed)))

theorem restore_stamped {v : RowVersion} (member : v ∈ store) {stamps : List PendingTombstone}
    (own : ∀ p ∈ stamps, mine p.xid)
    (written : mine v.xmax ∨ ∃ p ∈ stamps, v.collection = p.collection ∧ v.id = p.id) :
    ∃ w ∈ stamps.foldl (fun store p => store.setXmax p.collection p.id fun _ => p.xid) store,
      v.Same w ∧ mine w.xmax := by
  induction stamps generalizing store v with
  | nil =>
    rcases written with stamped | ⟨p, absent, -⟩
    · exact ⟨v, member, .refl v, stamped⟩
    · exact absurd absent not_mem_nil
  | cons p rest step =>
    obtain ⟨w, there, same, stamp⟩ := setXmax_mem member p.collection p.id fun _ => p.xid
    have after : mine w.xmax ∨ ∃ q ∈ rest, w.collection = q.collection ∧ w.id = q.id := by
      rw [stamp]
      split_ifs with here
      · exact .inl (own p mem_cons_self)
      · rcases written with stamped | ⟨q, listed, at'⟩
        · exact .inl stamped
        · rcases mem_cons.mp listed with rfl | listed
          · exact absurd at' here
          · rw [same.collection, same.id]
            exact .inr ⟨q, listed, at'⟩
    obtain ⟨final, member, same', stamped⟩ := step there (fun q listed => own q (mem_cons_of_mem _ listed)) after
    exact ⟨final, member, same.trans same', stamped⟩

end

end RowStore

section

variable {m : SnapshotManager} {snapshot : Snapshot} {ownXids : Finset Nat} {store : RowStore}

variable {collection : String} {a : Unit}

theorem checkXid_ok {logicalId xid : Nat} (passed : checkXid m snapshot ownXids collection logicalId xid = .ok a) :
    xidConflictsWithSnapshot m snapshot ownXids xid = false := by
  unfold checkXid at passed
  split_ifs at passed with conflict
  exact Bool.eq_false_iff.mpr conflict

variable {excludedIds : List Nat}

theorem checkLogicalRowConflict_ok {logicalId : Nat}
    (passed : checkLogicalRowConflict m snapshot ownXids collection logicalId excludedIds store = .ok a)
    {v : RowVersion} (member : v ∈ store) (here : v.collection = collection) (row : v.logicalId = logicalId)
    (included : v.id ∉ excludedIds) :
    xidConflictsWithSnapshot m snapshot ownXids v.xmin = false ∧
      xidConflictsWithSnapshot m snapshot ownXids v.xmax = false := by
  induction store with
  | nil => exact absurd member not_mem_nil
  | cons head rest step =>
    rw [checkLogicalRowConflict] at passed
    split at passed
    · rename_i skipped
      rcases mem_cons.mp member with rfl | later
      · simp [here, row, included] at skipped
      · exact step passed later
    · obtain ⟨_, created, passed⟩ := except_bind_ok passed
      obtain ⟨_, deleted, passed⟩ := except_bind_ok passed
      rcases mem_cons.mp member with rfl | later
      · exact ⟨checkXid_ok created, checkXid_ok deleted⟩
      · exact step passed later

theorem checkWrite_ok {id xid previousXmax : Nat}
    (passed : checkWrite m snapshot ownXids store collection id xid previousXmax excludedIds = .ok a)
    {v : RowVersion} (found : store.get? collection id = some v) :
    (v.xmax ≠ xid → xidConflictsWithSnapshot m snapshot ownXids v.xmax = false) ∧
      ∀ w ∈ store, w.collection = collection → w.logicalId = v.logicalId → w.id ∉ excludedIds →
        xidConflictsWithSnapshot m snapshot ownXids w.xmin = false ∧
          xidConflictsWithSnapshot m snapshot ownXids w.xmax = false := by
  simp only [checkWrite, found] at passed
  obtain ⟨_, -, passed⟩ := except_bind_ok passed
  split_ifs at passed with other
  · obtain ⟨_, overwritten, passed⟩ := except_bind_ok passed
    exact ⟨fun _ => checkXid_ok overwritten, fun w member here row => checkLogicalRowConflict_ok passed member here row⟩
  · exact ⟨fun changed => absurd changed other,
      fun w member here row => checkLogicalRowConflict_ok passed member here row⟩

theorem checkUpdates_ok {updates : List PendingUpdate}
    (passed : checkUpdates m snapshot ownXids store updates = .ok a) {u : PendingUpdate} (member : u ∈ updates) :
    checkWrite m snapshot ownXids store u.collection u.oldId u.xid u.previousXmax [u.oldId, u.newId] = .ok () := by
  induction updates with
  | nil => exact absurd member not_mem_nil
  | cons head rest step =>
    obtain ⟨_, first, passed⟩ := except_bind_ok passed
    rcases mem_cons.mp member with rfl | later
    · exact first
    · exact step passed later

theorem checkTombstones_ok {tombstones : List PendingTombstone}
    (passed : checkTombstones m snapshot ownXids store tombstones = .ok a) {t : PendingTombstone}
    (member : t ∈ tombstones) :
    checkWrite m snapshot ownXids store t.collection t.id t.xid t.previousXmax [t.id] = .ok () := by
  induction tombstones with
  | nil => exact absurd member not_mem_nil
  | cons head rest step =>
    obtain ⟨_, first, passed⟩ := except_bind_ok passed
    rcases mem_cons.mp member with rfl | later
    · exact first
    · exact step passed later

theorem checkTableRowWriteConflicts_ok {w : WriteSet}
    (passed : checkTableRowWriteConflicts m snapshot ownXids store w = .ok a) {p : PendingTombstone}
    (member : p ∈ w.stamps) : ∃ excludedIds,
      (∀ id ∈ excludedIds, id = p.id ∨ ∃ u ∈ w.updates, u.collection = p.collection ∧ u.newId = id) ∧
        checkWrite m snapshot ownXids store p.collection p.id p.xid p.previousXmax excludedIds = .ok () := by
  obtain ⟨_, updates, tombstones⟩ := except_bind_ok passed
  rcases mem_append.mp member with updated | deleted
  · obtain ⟨u, listed, rfl⟩ := mem_map.mp updated
    refine ⟨_, fun id excluded => ?_, checkUpdates_ok updates listed⟩
    rcases mem_cons.mp excluded with old | new
    · exact .inl old
    · exact .inr ⟨u, listed, rfl, (mem_singleton.mp new).symm⟩
  · exact ⟨_, fun id excluded => .inl (mem_singleton.mp excluded), checkTombstones_ok tombstones deleted⟩

end

end RedDB.Transaction
