import RedDB.Transaction.Sessions

namespace RedDB.Transaction

open List Library SnapshotManager Transaction.System Table Prod
open Finset (mem_insert mem_erase)

namespace Session

def owned : Session → List Nat
  | .idle => []
  | .allocated xid _ | .registered xid _ => [xid]
  | .running context => context.retireOrder
  | .retiring .resume context pending => context.retireOrder ++ pending
  | .retiring _ context _ => context.retireOrder

def held : Session → List Nat
  | .retiring .commit _ pending | .retiring .rollback _ pending => pending
  | σ => σ.owned

def surviving : Session → List Nat
  | .retiring .rollback _ _ => []
  | .retiring _ context _ => context.retireOrder
  | σ => σ.owned

def Retired (m : SnapshotManager) : Session → Prop
  | .retiring .resume _ _ => True
  | .retiring _ context pending =>
    pending.Sublist context.retireOrder ∧ ∀ x ∈ context.retireOrder, x ∉ pending → x ∉ m.active
  | _ => True

def context : Session → Option TxnContext
  | .running context => some context
  | _ => none

theorem surviving_subset (σ : Session) : σ.surviving ⊆ σ.owned := by
  intro x member
  rcases σ with _ | _ | _ | context | ⟨goal, context, pending⟩
  case retiring =>
    cases goal
    · exact member
    · simp [surviving] at member
    · exact mem_append_left _ member
  all_goals exact member

theorem held_subset {m : SnapshotManager} {σ : Session} (retired : σ.Retired m) : σ.held ⊆ σ.owned := by
  rcases σ with _ | _ | _ | context | ⟨goal, context, pending⟩
  case retiring =>
    cases goal
    · exact retired.1.subset
    · exact retired.1.subset
    · exact List.Subset.refl _
  all_goals exact List.Subset.refl _

end Session

namespace TxnContext

theorem pushSavepoint_retireOrder (c : TxnContext) (name : String) (xid : Nat) :
    (c.pushSavepoint name xid).retireOrder.Perm (xid :: c.retireOrder) := by
  simp only [retireOrder, pushSavepoint, map_append, map_cons, map_nil, append_assoc, singleton_append]
  exact perm_middle

theorem below_append_fromFirst (c : TxnContext) (name : String) :
    (c.below name).map snd ++ (c.fromFirst name).map snd = c.savepoints.map snd := by
  rw [← map_append, below, fromFirst, takeWhile_append_dropWhile]

variable {c left : TxnContext} {name : String}

variable {rollback : RollbackToSavepoint} {released : Nat}

theorem releaseSavepoint_ok (split : c.releaseSavepoint name = .ok (released, left)) :
    c.fromFirst name ≠ [] ∧ left = { c with
      savepoints := c.below name
      releasedSubXids := c.releasedSubXids ++ (c.fromFirst name).map snd } := by
  unfold releaseSavepoint at split
  cases inner : c.fromFirst name with
  | nil => simp [inner] at split
  | cons savepoint rest =>
    simp only [inner, Except.ok.injEq, Prod.mk.injEq] at split
    exact ⟨cons_ne_nil _ _, split.2.symm⟩

theorem rollbackToSavepoint_ok (split : c.rollbackToSavepoint name = .ok (rollback, left)) :
    c.fromFirst name ≠ [] ∧ rollback.abortedXids = (c.fromFirst name).map snd ∧
      left = { c with savepoints := c.below name } := by
  unfold rollbackToSavepoint at split
  cases inner : c.fromFirst name with
  | nil => simp [inner] at split
  | cons savepoint rest =>
    simp only [inner, Except.ok.injEq, Prod.mk.injEq] at split
    obtain ⟨rfl, rfl⟩ := split
    exact ⟨cons_ne_nil _ _, rfl, rfl⟩

theorem releaseSavepoint_retireOrder (split : c.releaseSavepoint name = .ok (released, left)) :
    left.retireOrder.Perm c.retireOrder := by
  obtain ⟨-, rfl⟩ := releaseSavepoint_ok split
  simp only [retireOrder, ← c.below_append_fromFirst name, append_assoc]
  refine List.Perm.append_left _ ?_
  rw [← append_assoc, ← append_assoc]
  exact perm_append_comm.append_right _

theorem rollbackToSavepoint_retireOrder (split : c.rollbackToSavepoint name = .ok (rollback, left)) :
    (left.retireOrder ++ rollback.abortedXids).Perm c.retireOrder := by
  obtain ⟨-, aborted, rfl⟩ := rollbackToSavepoint_ok split
  rw [aborted]
  simp only [retireOrder, ← c.below_append_fromFirst name, append_assoc]
  refine List.Perm.append_left _ ?_
  rw [← append_assoc]
  exact perm_append_comm

end TxnContext

structure Settled (s : System) (x : Nat) : Prop where
  real : x ≠ xidNone
  issued : ¬ s.manager.Unissued x
  inactive : x ∉ s.manager.active
  clean : x ∉ s.manager.aborted
  free : ∀ conn, x ∉ (s.session conn).owned

/-- Every id belongs to at most one connection, and the manager's sets agree with what the
    connections hold. -/
structure Owns (s : System) : Prop where
  wellFormed : s.manager.WellFormed
  known : ∀ x, x ∈ s.manager.active ∨ x ∈ s.manager.aborted → ¬ s.manager.Unissued x
  issued : ∀ conn, ∀ x ∈ (s.session conn).owned, x ≠ xidNone ∧ ¬ s.manager.Unissued x
  distinct : ∀ conn, (s.session conn).owned.Nodup
  apart : ∀ conn other, conn ≠ other → ∀ x ∈ (s.session conn).owned, x ∉ (s.session other).owned
  held : ∀ conn, ∀ x ∈ (s.session conn).held, x ∈ s.manager.active
  clean : ∀ conn, ∀ x ∈ (s.session conn).surviving, x ∉ s.manager.aborted
  retired : ∀ conn, (s.session conn).Retired s.manager
  settled : ∀ done ∈ s.committed, ∀ x ∈ done.context.retireOrder, Settled s x

variable {s : System}

variable {touched : List Nat} {x : Nat}

theorem Settled.not_excluded (settled : Settled s x) {snapshot : Snapshot} (reached : x ≤ snapshot.xid)
    (inProgress : snapshot.inProgress ⊆ s.manager.active ∪ s.manager.pool.reserved) :
    ¬ snapshot.Excludes x := by
  rintro ⟨-, future | active⟩
  · exact absurd reached future.not_ge
  · rcases Finset.mem_union.mp (inProgress active) with active | reserved
    · exact settled.inactive active
    · exact settled.issued (.inr reserved)

theorem Owns.init : Owns .init where
  wellFormed := History.Inv.init.wellFormed
  known := by simp [System.init, new]
  issued := by simp [System.init, System.session, get?, Session.owned]
  distinct := by simp [System.init, System.session, get?, Session.owned]
  apart := by simp [System.init, System.session, get?, Session.owned]
  held := by simp [System.init, System.session, get?, Session.owned, Session.held]
  clean := by simp [System.init, System.session, get?, Session.owned, Session.surviving]
  retired := by simp [System.init, System.session, get?, Session.Retired]
  settled := by simp [System.init]

/-- `m'` differs from `m` only at the ids that `touched` lists and at ids not handed out yet. -/
structure Framed (m m' : SnapshotManager) (touched : List Nat) : Prop where
  wellFormed : m'.WellFormed
  unissued : ∀ x, m'.Unissued x → m.Unissued x
  known : ∀ x, x ∈ m'.active ∨ x ∈ m'.aborted → ¬ m'.Unissued x
  active : ∀ x, x ∉ touched → ¬ m.Unissued x → (x ∈ m'.active ↔ x ∈ m.active)
  aborted : ∀ x, x ∉ touched → ¬ m.Unissued x → (x ∈ m'.aborted ↔ x ∈ m.aborted)

structure Session.OwnsAt (σ : Session) (m : SnapshotManager) : Prop where
  issued : ∀ x ∈ σ.owned, x ≠ xidNone ∧ ¬ m.Unissued x
  distinct : σ.owned.Nodup
  held : ∀ x ∈ σ.held, x ∈ m.active
  clean : ∀ x ∈ σ.surviving, x ∉ m.aborted
  retired : σ.Retired m

theorem Owns.at (own : Owns s) (conn : Nat) : (s.session conn).OwnsAt s.manager :=
  ⟨own.issued conn, own.distinct conn, own.held conn, own.clean conn, own.retired conn⟩

theorem Session.OwnsAt.frame {σ : Session} {m m' : SnapshotManager}
    (own : σ.OwnsAt m) (framed : Framed m m' touched) (apart : ∀ x ∈ σ.owned, x ∉ touched) :
    σ.OwnsAt m' where
  issued := fun x member =>
    ⟨(own.issued x member).1, fun later => (own.issued x member).2 (framed.unissued x later)⟩
  distinct := own.distinct
  held := by
    intro x member
    have owned := Session.held_subset own.retired member
    exact (framed.active x (apart x owned) (own.issued x owned).2).mpr (own.held x member)
  clean := by
    intro x member
    have owned := σ.surviving_subset member
    rw [framed.aborted x (apart x owned) (own.issued x owned).2]
    exact own.clean x member
  retired := by
    have retired := own.retired
    rcases σ with _ | _ | _ | context | ⟨goal, context, pending⟩
    case retiring =>
      have inactive (whole : ∀ x ∈ context.retireOrder, x ∈ (Session.retiring goal context pending).owned)
          (before : ∀ x ∈ context.retireOrder, x ∉ pending → x ∉ m.active) :
          ∀ x ∈ context.retireOrder, x ∉ pending → x ∉ m'.active := by
        intro x member gone
        have owned := whole x member
        rw [framed.active x (apart x owned) (own.issued x owned).2]
        exact before x member gone
      cases goal
      · exact ⟨retired.1, inactive (fun _ member => member) retired.2⟩
      · exact ⟨retired.1, inactive (fun _ member => member) retired.2⟩
      · trivial
    all_goals trivial

theorem Settled.frame {t : System} (settled : Settled s x)
    (framed : Framed s.manager t.manager touched) (untouched : x ∉ touched)
    (free : ∀ conn, x ∉ (t.session conn).owned) : Settled t x where
  real := settled.real
  issued := fun later => settled.issued (framed.unissued x later)
  inactive := by
    rw [framed.active x untouched settled.issued]
    exact settled.inactive
  clean := by
    rw [framed.aborted x untouched settled.issued]
    exact settled.clean
  free := free

theorem Owns.move (own : Owns s) {conn : Nat} {σ : Session} (j : Journal) {m : SnapshotManager}
    (framed : Framed s.manager m (s.session conn).owned) (at' : σ.OwnsAt m)
    (origin : ∀ x ∈ σ.owned, x ∈ (s.session conn).owned ∨ s.manager.Unissued x) :
    Owns (s.move conn σ j m) := by
  have foreign {other x : Nat} (different : other ≠ conn) (member : x ∈ (s.session other).owned) : x ∉ σ.owned := by
    intro shared
    rcases origin x shared with before | fresh
    · exact own.apart other conn different x member before
    · exact (own.issued other x member).2 fresh
  have ownsAt (other : Nat) : ((s.move conn σ j m).session other).OwnsAt m := by
    rw [session_move]
    split_ifs with same
    · exact at'
    · exact (own.at other).frame framed (own.apart other conn same)
  refine ⟨framed.wellFormed, framed.known, fun c => (ownsAt c).issued, fun c => (ownsAt c).distinct, ?_,
    fun c => (ownsAt c).held, fun c => (ownsAt c).clean, fun c => (ownsAt c).retired, ?_⟩
  · intro c other different x member
    rw [session_move] at member ⊢
    by_cases here : c = conn
    · have there : other ≠ conn := fun same => different (here.trans same.symm)
      rw [if_pos here] at member
      rw [if_neg there]
      exact fun shared => foreign there shared member
    · rw [if_neg here] at member
      split_ifs
      · exact foreign here member
      · exact own.apart c other different x member
  · intro done member x ids
    have settled := own.settled done member x ids
    refine settled.frame framed (settled.free conn) fun other => ?_
    rw [session_move]
    split_ifs
    · intro shared
      rcases origin x shared with before | fresh
      · exact settled.free conn before
      · exact settled.issued fresh
    · exact settled.free other

section

variable {m : SnapshotManager}

theorem begin_framed (ok : m.WellFormed) (bound : m.nextXid + 1 < maxXid)
    (known : ∀ x, x ∈ m.active ∨ x ∈ m.aborted → ¬ m.Unissued x) (touched : List Nat) :
    Framed m m.begin.2 touched := by
  have issues := begin_issues ok bound
  refine ⟨issues.wellFormed, fun x later => (issues.rest x later).1, fun x member later => ?_,
    fun x _ issued => ?_, fun x _ _ => Iff.rfl⟩
  · obtain ⟨before, other⟩ := issues.rest x later
    rcases member with active | aborted
    · rcases mem_insert.mp (issues.active active) with same | active
      · exact other same
      · exact known x (.inl active) before
    · exact known x (.inr aborted) before
  · have other : x ≠ m.begin.1 := fun same => issued (same ▸ issues.fresh)
    exact mem_insert.trans (or_iff_right other)

theorem quiet_framed {m' : SnapshotManager} (ok : m.WellFormed)
    (known : ∀ x, x ∈ m.active ∨ x ∈ m.aborted → ¬ m.Unissued x) (quiet : Quiet m m')
    (active : m'.active = m.active) (aborted : m'.aborted = m.aborted) (touched : List Nat) :
    Framed m m' touched := by
  refine ⟨quiet.wellFormed ok, fun x => quiet.unissued, fun x member later => ?_, fun x _ _ => by rw [active],
    fun x _ _ => by rw [aborted]⟩
  rw [active, aborted] at member
  exact known x member (quiet.unissued later)

section

variable (ok : m.WellFormed) (known : ∀ x, x ∈ m.active ∨ x ∈ m.aborted → ¬ m.Unissued x)
include ok known

theorem snapshot_framed (xid : Nat) (touched : List Nat) : Framed m (m.snapshot xid).2 touched := by
  refine quiet_framed ok known (snapshot_quiet m xid) ?_ ?_ touched <;>
    simp only [snapshot] <;> split_ifs <;> rfl

theorem beginSerializable_framed (xid : Nat) (touched : List Nat) : Framed m (m.beginSerializable xid) touched := by
  refine quiet_framed ok known (beginSerializable_quiet m xid) ?_ ?_ touched <;>
    unfold beginSerializable <;> split <;> rfl

end

theorem retireOne_active (goal : Goal) (m : SnapshotManager) (xid : Nat) :
    (retireOne goal m xid).active = m.active.erase xid := by
  cases goal <;> simp [retireOne, commit, rollback]

theorem retireOne_aborted (goal : Goal) (m : SnapshotManager) (xid : Nat) : (retireOne goal m xid).aborted =
      if goal = .commit then m.aborted.erase xid else insert xid m.aborted := by
  cases goal <;> simp [retireOne, commit, rollback]

theorem retireOne_quiet (goal : Goal) (m : SnapshotManager) (xid : Nat) : Quiet m (retireOne goal m xid) := by
  cases goal
  · exact commit_quiet m xid
  · exact rollback_quiet m xid
  · exact rollback_quiet m xid

theorem retireOne_framed (ok : m.WellFormed)
    (known : ∀ x, x ∈ m.active ∨ x ∈ m.aborted → ¬ m.Unissued x) (goal : Goal) {xid : Nat}
    (issued : ¬ m.Unissued xid) {touched : List Nat} (member : xid ∈ touched) :
    Framed m (retireOne goal m xid) touched := by
  have quiet := retireOne_quiet goal m xid
  have others {x : Nat} (apart : x ∉ touched) : x ≠ xid := fun same => apart (same ▸ member)
  refine ⟨quiet.wellFormed ok, fun x => quiet.unissued, fun x member later => ?_, fun x apart _ => ?_,
    fun x apart _ => ?_⟩
  · have before := quiet.unissued later
    rw [retireOne_active, retireOne_aborted] at member
    by_cases same : x = xid
    · exact issued (same ▸ before)
    · split_ifs at member <;> simp only [mem_erase, mem_insert, same, ne_eq, not_false_eq_true,
        true_and, false_or] at member
      · exact known x member before
      · exact known x member before
  · rw [retireOne_active, mem_erase]
    exact and_iff_right (others apart)
  · rw [retireOne_aborted]
    split_ifs
    · rw [mem_erase]
      exact and_iff_right (others apart)
    · rw [mem_insert]
      exact or_iff_right (others apart)

theorem allocateCommittedXid_sets (m : SnapshotManager) :
    m.allocateCommittedXid.2.active = m.active ∧ m.allocateCommittedXid.2.aborted = m.aborted := by
  unfold allocateCommittedXid
  split_ifs <;> exact ⟨rfl, rfl⟩

theorem allocateCommittedXid_framed (ok : m.WellFormed)
    (bound : m.pool.stop ≤ m.pool.next → m.nextXid + autocommitPoolBatch < maxXid)
    (known : ∀ x, x ∈ m.active ∨ x ∈ m.aborted → ¬ m.Unissued x) :
    Framed m m.allocateCommittedXid.2 [] := by
  have issues := allocateCommittedXid_issues ok bound
  obtain ⟨active, aborted⟩ := allocateCommittedXid_sets m
  refine ⟨issues.wellFormed, fun x later => (issues.rest x later).1, fun x member later => ?_,
    fun x _ _ => by rw [active], fun x _ _ => by rw [aborted]⟩
  rw [active, aborted] at member
  exact known x member (issues.rest x later).1

theorem observeCommittedXid_framed (ok : m.WellFormed)
    (known : ∀ x, x ∈ m.active ∨ x ∈ m.aborted → ¬ m.Unissued x) (xid : Nat) :
    Framed m (m.observeCommittedXid xid) [] := by
  have active := observeCommittedXid_active m xid
  have aborted : (m.observeCommittedXid xid).aborted = m.aborted := by
    unfold observeCommittedXid
    split_ifs <;> rfl
  refine ⟨observeCommittedXid_wellFormed ok xid, fun x => observeCommittedXid_unissued,
    fun x member later => ?_, fun x _ _ => by rw [active], fun x _ _ => by rw [aborted]⟩
  rw [active, aborted] at member
  exact known x member (observeCommittedXid_unissued later)

end

variable {s : System} {m : SnapshotManager}

theorem Owns.setManager (own : Owns s) (framed : Framed s.manager m []) : Owns { s with manager := m } := by
  have ownsAt (conn : Nat) : (s.session conn).OwnsAt m := (own.at conn).frame framed fun _ _ => not_mem_nil
  refine ⟨framed.wellFormed, framed.known, fun c => (ownsAt c).issued, own.distinct, own.apart,
    fun c => (ownsAt c).held, fun c => (ownsAt c).clean, fun c => (ownsAt c).retired, ?_⟩
  intro done member x ids
  exact (own.settled done member x ids).frame framed not_mem_nil (own.settled done member x ids).free

theorem Owns.setCaptures (own : Owns s) (captures : List (Option Nat × Snapshot)) : Owns { s with captures } := by
  refine ⟨own.wellFormed, own.known, own.issued, own.distinct, own.apart, own.held, own.clean, own.retired, ?_⟩
  intro done member x ids
  have settled := own.settled done member x ids
  exact ⟨settled.real, settled.issued, settled.inactive, settled.clean, settled.free⟩

theorem Owns.addCommitted (own : Owns s) {done : Committed} (settled : ∀ x ∈ done.context.retireOrder, Settled s x) :
    Owns { s with committed := s.committed ++ [done] } := by
  refine ⟨own.wellFormed, own.known, own.issued, own.distinct, own.apart, own.held, own.clean, own.retired, ?_⟩
  intro other member x ids
  have settled : Settled s x := by
    rcases mem_append.mp member with before | new
    · exact own.settled other before x ids
    · rw [mem_singleton.mp new] at ids
      exact settled x ids
  exact ⟨settled.real, settled.issued, settled.inactive, settled.clean, settled.free⟩

variable {σ : Session}

theorem Session.OwnsAt.regroup {σ' : Session} (own : σ.OwnsAt m)
    (owned : σ'.owned.Perm σ.owned) (held : σ'.held ⊆ σ.held) (surviving : σ'.surviving ⊆ σ.surviving)
    (retired : σ'.Retired m) : σ'.OwnsAt m where
  issued := fun x member => own.issued x (owned.subset member)
  distinct := owned.nodup_iff.mpr own.distinct
  held := fun x member => own.held x (held member)
  clean := fun x member => own.clean x (surviving member)
  retired := retired

theorem Owns.regroup (own : Owns s) {conn : Nat} (j : Journal) (framed : ∀ touched, Framed s.manager m touched)
    (owned : σ.owned.Perm (s.session conn).owned) (held : σ.held ⊆ (s.session conn).held)
    (surviving : σ.surviving ⊆ (s.session conn).surviving) (retired : σ.Retired m) :
    Owns (s.move conn σ j m) := by
  have same := (own.at conn).frame (framed []) fun _ _ => not_mem_nil
  exact own.move j (framed _) (same.regroup owned held surviving retired) fun x member => .inl (owned.subset member)

theorem Owns.framed_refl (own : Owns s) (touched : List Nat) : Framed s.manager s.manager touched :=
  ⟨own.wellFormed, fun _ later => later, own.known, fun _ _ _ => Iff.rfl, fun _ _ _ => Iff.rfl⟩

theorem Owns.issue (own : Owns s) {conn : Nat} (j : Journal) (bound : s.manager.nextXid + 1 < maxXid)
    (owned : σ.owned.Perm (s.manager.begin.1 :: (s.session conn).owned)) (whole : σ.held = σ.owned)
    (before : (s.session conn).held = (s.session conn).owned)
    (kept : (s.session conn).surviving = (s.session conn).owned)
    (retired : σ.Retired s.manager.begin.2) : Owns (s.move conn σ j s.manager.begin.2) := by
  have issues := begin_issues own.wellFormed bound
  have framed := begin_framed own.wellFormed bound own.known
  have same := (own.at conn).frame (framed []) fun _ _ => not_mem_nil
  have origin {x : Nat} (member : x ∈ σ.owned) : x = s.manager.begin.1 ∨ x ∈ (s.session conn).owned :=
    mem_cons.mp (owned.subset member)
  have unowned : s.manager.begin.1 ∉ (s.session conn).owned := fun member => (own.issued conn _ member).2 issues.fresh
  refine own.move j (framed _) ⟨fun x member => ?_, ?_, fun x member => ?_, fun x member => ?_, retired⟩
    fun x member => ?_
  · rcases origin member with rfl | member
    · exact ⟨own.wellFormed.real issues.fresh, fun later => (issues.rest _ later).2 rfl⟩
    · exact same.issued x member
  · exact owned.nodup_iff.mpr (nodup_cons.mpr ⟨unowned, own.distinct conn⟩)
  · rw [whole] at member
    rcases origin member with rfl | member
    · exact Finset.mem_insert_self _ _
    · exact same.held x (before ▸ member)
  · rcases origin (σ.surviving_subset member) with rfl | member
    · exact fun aborted => own.known _ (.inr aborted) issues.fresh
    · exact same.clean x (kept ▸ member)
  · rcases origin member with rfl | member
    · exact .inr issues.fresh
    · exact .inl member

theorem Session.OwnsAt.retire {goal : Goal} {context : TxnContext} {xid : Nat} {pending : List Nat}
    (own : (Session.retiring goal context (xid :: pending)).OwnsAt m) :
    (Session.retiring goal context pending).OwnsAt (retireOne goal m xid) := by
  have quiet := retireOne_quiet goal m xid
  have active := retireOne_active goal m xid
  have aborted := retireOne_aborted goal m xid
  have issued {x : Nat} (before : x ∈ (Session.retiring goal context (xid :: pending)).owned) :
      x ≠ xidNone ∧ ¬ (retireOne goal m xid).Unissued x :=
    ⟨(own.issued x before).1, fun later => (own.issued x before).2 (quiet.unissued later)⟩
  cases goal with
  | resume =>
    have distinct : (context.retireOrder ++ xid :: pending).Nodup := own.distinct
    have apart : xid ∉ context.retireOrder ++ pending := (nodup_cons.mp (perm_middle.nodup_iff.mp distinct)).1
    have within : (context.retireOrder ++ pending).Sublist (context.retireOrder ++ xid :: pending) :=
      List.Sublist.append_left (sublist_cons_self _ _) _
    refine ⟨fun x member => issued (within.subset member), distinct.sublist within, fun x member => ?_,
      fun x member => ?_, trivial⟩
    · rw [active, mem_erase]
      exact ⟨fun same => apart (same ▸ member), own.held x (within.subset member)⟩
    · rw [aborted]
      simp only [reduceCtorEq, if_false, mem_insert, not_or]
      exact ⟨fun same => apart (same ▸ mem_append_left _ member), own.clean x member⟩
  | commit | rollback =>
    obtain ⟨sublist, gone⟩ := own.retired
    have distinct := nodup_cons.mp (own.distinct.sublist sublist)
    refine ⟨fun x member => issued member, own.distinct, fun x member => ?_, fun x member => ?_,
      (sublist_cons_self _ _).trans sublist, fun x member left => ?_⟩
    · rw [active, mem_erase]
      exact ⟨fun same => distinct.1 (same ▸ member), own.held x (mem_cons_of_mem _ member)⟩
    · first
      | exact absurd member not_mem_nil
      | rw [aborted, if_pos rfl, mem_erase]
        exact fun both => own.clean x member both.2
    · rw [active, mem_erase]
      rintro ⟨other, still⟩
      exact gone x member (fun pending => (mem_cons.mp pending).elim other left) still

theorem Session.idle_ownsAt (m : SnapshotManager) : Session.idle.OwnsAt m :=
  ⟨by simp [Session.owned], by simp [Session.owned], by simp [Session.held, Session.owned],
    by simp [Session.surviving, Session.owned], trivial⟩

section

variable {s : System} {conn xid : Nat} {goal : Goal} {context : TxnContext} {pending : List Nat}

section

variable (own : Owns s) (found : s.session conn = .retiring goal context (xid :: pending))
include own found

theorem Owns.pending_owned : xid ∈ (s.session conn).owned := by
  apply Session.held_subset (own.retired conn)
  rw [found]
  cases goal <;> simp [Session.held, Session.owned]

theorem Owns.retireOne_framed : Framed s.manager (retireOne goal s.manager xid) (s.session conn).owned :=
  Transaction.retireOne_framed own.wellFormed own.known goal
    (own.issued conn xid (own.pending_owned found)).2 (own.pending_owned found)

theorem Owns.retire : Owns (s.move conn (.retiring goal context pending) (s.journal conn)
      (retireOne goal s.manager xid)) := by
  have at' := own.at conn
  rw [found] at at'
  refine own.move _ (own.retireOne_framed found) at'.retire fun x member => .inl ?_
  rw [found]
  cases goal
  · exact member
  · exact member
  · exact List.Sublist.subset (List.Sublist.append_left (sublist_cons_self _ _) _) member

end

theorem Owns.finish (own : Owns s) (found : s.session conn = .retiring goal context [xid]) :
    Owns (s.finish conn context (retireOne goal s.manager xid) goal) := by
  have at' := own.at conn
  rw [found] at at'
  have after := at'.retire
  have idle : Owns (s.move conn .idle .empty (retireOne goal s.manager xid)) :=
    own.move _ (own.retireOne_framed found) (Session.idle_ownsAt _)
      fun x member => absurd member not_mem_nil
  cases goal with
  | commit =>
    refine idle.addCommitted fun x member => ?_
    have issued := after.issued x member
    refine ⟨issued.1, issued.2, after.retired.2 x member not_mem_nil, after.clean x member, fun other => ?_⟩
    rw [session_move]
    split_ifs with same
    · exact not_mem_nil
    · have mine : x ∈ (s.session conn).owned := by
        rw [found]
        exact member
      exact own.apart conn other (fun eq => same eq.symm) x mine
  | rollback => exact idle
  | resume =>
    have running : (Session.running context).OwnsAt (retireOne .resume s.manager xid) := by
      refine after.regroup ?_ ?_ (List.Subset.refl _) trivial <;>
        simp [Session.owned, Session.held]
    refine own.move _ (own.retireOne_framed found) running fun x member => .inl ?_
    rw [found]
    exact mem_append_left _ member

end

theorem Owns.step {s t : System} {e : Event} (own : Owns s) (bound : s.CounterBelowMax e)
    (effect : System.Effect s e t) : Owns t := by
  cases effect with
  | begin free =>
    refine own.issue _ bound ?_ rfl ?_ ?_ trivial <;> simp [free, Session.owned, Session.held, Session.surviving]
  | register found =>
    refine own.regroup _ (fun touched => ?_) ?_ ?_ ?_ trivial
    · split_ifs
      · exact beginSerializable_framed own.wellFormed own.known _ touched
      · exact own.framed_refl touched
    all_goals simp [found, Session.owned, Session.held, Session.surviving]
  | @takeSnapshot conn xid isolation found =>
    have moved : Owns (s.move conn (.running ⟨xid, isolation, (s.manager.snapshot xid).1, [], []⟩) .empty
        (s.manager.snapshot xid).2) := by
      refine own.regroup _ (snapshot_framed own.wellFormed own.known xid) ?_ ?_ ?_ trivial
      all_goals simp [found, Session.owned, Session.held, Session.surviving, TxnContext.retireOrder]
    exact moved.setCaptures _
  | savepoint found =>
    refine own.issue _ bound ?_ rfl ?_ ?_ trivial
    · rw [found]
      exact TxnContext.pushSavepoint_retireOrder _ _ _
    all_goals simp [found, Session.held, Session.surviving, Session.owned]
  | write found =>
    refine own.regroup _ own.framed_refl ?_ ?_ ?_ trivial <;> simp [found]
  | release found split =>
    have perm := TxnContext.releaseSavepoint_retireOrder split
    refine own.regroup _ own.framed_refl ?_ ?_ ?_ trivial
    all_goals rw [found]
    · exact perm
    · exact perm.subset
    · exact perm.subset
  | rollbackTo found split =>
    have perm := TxnContext.rollbackToSavepoint_retireOrder split
    refine own.regroup _ own.framed_refl ?_ ?_ ?_ trivial
    all_goals rw [found]
    · exact perm
    · exact perm.subset
    · exact fun x member => perm.subset (mem_append_left _ member)
  | retireAll goal whole found =>
    cases goal with
    | resume => exact absurd rfl whole
    | commit | rollback =>
      refine own.regroup _ own.framed_refl ?_ ?_ ?_ ⟨List.Sublist.refl _, fun x member gone => absurd member gone⟩
      all_goals simp [found, Session.owned, Session.held, Session.surviving]
  | retire found => exact own.retire found
  | finish found => exact own.finish found
  | capture => exact own.setCaptures _
  | autocommit => exact own.setManager (allocateCommittedXid_framed own.wellFormed bound own.known)
  | observe => exact own.setManager (observeCommittedXid_framed own.wellFormed own.known _)
  | unchanged => exact own

end RedDB.Transaction
