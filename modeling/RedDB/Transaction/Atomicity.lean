import RedDB.Transaction.Ownership

namespace RedDB.Transaction

open List Library SnapshotManager Transaction.System

namespace Session

def parent : Session → Option Nat
  | .idle => none
  | .allocated xid _ | .registered xid _ => some xid
  | .running context | .retiring _ context _ => some context.xid

def halfCommitted : Session → Bool
  | .retiring .commit context pending => pending != context.retireOrder
  | _ => false

theorem surviving_held {σ : Session} (whole : σ.halfCommitted = false) : σ.surviving ⊆ σ.held := by
  rcases σ with _ | _ | _ | context | ⟨goal, context, pending⟩
  case retiring =>
    cases goal
    · have all : pending = context.retireOrder := by simpa [halfCommitted] using whole
      subst all
      exact List.Subset.refl _
    · exact nil_subset _
    · exact subset_append_left _ _
  all_goals exact List.Subset.refl _

end Session

/-- No snapshot is taken while a commit is half way, and none for an id that lies between two
    ids of a transaction that has committed meanwhile. -/
def System.Untorn (s : System) : Event → Prop
  | .capture => ∀ conn ∈ s.sessions.keys, (s.session conn).halfCommitted = false
  | .takeSnapshot conn => (∀ other ∈ s.sessions.keys, (s.session other).halfCommitted = false) ∧
    ∀ x ∈ (s.session conn).parent, ∀ done ∈ s.committed,
      (∀ y ∈ done.context.retireOrder, y < x) ∨ (∀ y ∈ done.context.retireOrder, x < y)
  | _ => True

instance (s : System) : (e : Event) → Decidable (s.Untorn e)
  | .capture => inferInstanceAs (Decidable (∀ _ ∈ _, _))
  | .takeSnapshot _ => inferInstanceAs (Decidable (_ ∧ _))
  | .begin _ _ | .register _ | .savepoint _ _ | .write _ | .release _ _ | .rollbackTo _ _ | .commit _
  | .refuse _ | .rollback _ | .retire _ | .autocommit | .observe _ => .isTrue trivial

def System.WholeCaptures (s : System) (e : Event) : Prop := s.CounterBelowMax e ∧ s.Untorn e

instance (s : System) (e : Event) : Decidable (s.WholeCaptures e) :=
  inferInstanceAs (Decidable (_ ∧ _))

variable {s : System} {conn : Nat}

theorem System.session_of_not_mem (absent : conn ∉ s.sessions.keys) : s.session conn = .idle := by
  simp [System.session, Table.get?, absent]

def AllOrNone (snapshot : Snapshot) (ids : List Nat) : Prop :=
  (∀ x ∈ ids, snapshot.Excludes x) ∨ (∀ x ∈ ids, ¬ snapshot.Excludes x)

def System.Inherits (s t : System) (conn : Nat) : Prop := ∀ x ∈ (t.session conn).surviving,
  s.manager.Unissued x ∨ x ∈ (s.session conn).surviving ∧ (t.session conn).parent = (s.session conn).parent

theorem System.inherits_move {σ : Session} {j : Journal} {m : SnapshotManager}
    (origin : ∀ x ∈ σ.surviving, s.manager.Unissued x ∨
      x ∈ (s.session conn).surviving ∧ σ.parent = (s.session conn).parent) (other : Nat) :
    s.Inherits (s.move conn σ j m) other := by
  unfold Inherits
  rw [session_move]
  split_ifs with same
  · rw [same]
    exact origin
  · exact fun x survives => .inr ⟨survives, rfl⟩

variable {t : System} {e : Event}

section

variable (ok : s.manager.WellFormed) (bound : s.CounterBelowMax e) (effect : System.Effect s e t)
include ok bound effect

theorem System.Effect.unissued {x : Nat} (later : t.manager.Unissued x) : s.manager.Unissued x := by
  cases effect with
  | begin | savepoint => exact ((begin_issues ok bound).rest x later).1
  | register found =>
    simp only [System.move] at later
    split_ifs at later
    · exact (beginSerializable_quiet _ _).unissued later
    · exact later
  | takeSnapshot found => exact (snapshot_quiet _ _).unissued later
  | write | release | rollbackTo | retireAll | capture | unchanged => exact later
  | @retire conn xid next goal context pending found => exact (retireOne_quiet goal s.manager xid).unissued later
  | @finish conn xid goal context found =>
    cases goal with
    | commit | rollback | resume => exact (retireOne_quiet _ s.manager xid).unissued later
  | autocommit => exact ((allocateCommittedXid_issues ok bound).rest x later).1
  | observe => exact observeCommittedXid_unissued later

theorem System.Effect.inherits (conn : Nat) : s.Inherits t conn := by
  cases effect with
  | begin free =>
    refine inherits_move (fun x survives => .inl ?_) conn
    rw [mem_singleton.mp survives]
    exact (begin_issues ok bound).fresh
  | savepoint found =>
    refine inherits_move (fun x survives => ?_) conn
    rw [found]
    rcases mem_cons.mp ((TxnContext.pushSavepoint_retireOrder _ _ _).subset survives) with rfl | before
    · exact .inl (begin_issues ok bound).fresh
    · exact .inr ⟨before, rfl⟩
  | register found | write found =>
    refine inherits_move (fun x survives => .inr ?_) conn
    rw [found]
    exact ⟨survives, rfl⟩
  | @takeSnapshot _ xid _ found =>
    refine inherits_move (m := (s.manager.snapshot xid).2) (fun x survives => .inr ?_) conn
    rw [found]
    exact ⟨survives, rfl⟩
  | release found split =>
    refine inherits_move (fun x survives => .inr ?_) conn
    have perm := TxnContext.releaseSavepoint_retireOrder split
    obtain ⟨-, rfl⟩ := TxnContext.releaseSavepoint_ok split
    rw [found]
    exact ⟨perm.subset survives, rfl⟩
  | rollbackTo found split =>
    refine inherits_move (fun x survives => .inr ?_) conn
    have perm := TxnContext.rollbackToSavepoint_retireOrder split
    obtain ⟨-, -, rfl⟩ := TxnContext.rollbackToSavepoint_ok split
    rw [found]
    exact ⟨perm.subset (mem_append_left _ survives), rfl⟩
  | retireAll goal whole found =>
    refine inherits_move (fun x survives => .inr ?_) conn
    rw [found]
    cases goal with
    | resume => exact absurd rfl whole
    | commit => exact ⟨survives, rfl⟩
    | rollback => exact absurd survives not_mem_nil
  | @retire conn xid next goal context pending found =>
    refine inherits_move (fun x survives => .inr ?_) _
    rw [found]
    cases goal with
    | rollback => exact absurd survives not_mem_nil
    | commit | resume => exact ⟨survives, rfl⟩
  | @finish conn xid goal context found =>
    cases goal with
    | commit =>
      exact inherits_move (m := s.manager.commit xid) (fun x survives => absurd survives not_mem_nil) _
    | rollback => exact inherits_move (fun x survives => absurd survives not_mem_nil) _
    | resume =>
      refine inherits_move (fun x survives => .inr ?_) _
      rw [found]
      exact ⟨survives, rfl⟩
  | capture | autocommit | observe | unchanged => exact fun x survives => .inr ⟨survives, rfl⟩

end

structure Atomic (s : System) : Prop where
  owns : Owns s
  unissued : ∀ c ∈ s.captures, ∀ x, s.manager.Unissued x → c.2.Excludes x
  pending : ∀ c ∈ s.captures, ∀ conn, c.1 ≠ (s.session conn).parent → ∀ x ∈ (s.session conn).surviving, c.2.Excludes x
  done : ∀ c ∈ s.captures, ∀ done ∈ s.committed, c.1 ≠ some done.context.xid → AllOrNone c.2 done.context.retireOrder

theorem Atomic.init : Atomic .init where
  owns := .init
  unissued := by simp [System.init]
  pending := by simp [System.init]
  done := by simp [System.init]

section

variable (atomic : Atomic s)
include atomic

theorem Atomic.carry (owns : Owns t)
    (unissued : ∀ x, t.manager.Unissued x → s.manager.Unissued x) (inherits : ∀ conn, s.Inherits t conn)
    (captures : t.captures = s.captures) (committed : t.committed = s.committed) : Atomic t where
  owns := owns
  unissued := by
    rw [captures]
    exact fun c member x later => atomic.unissued c member x (unissued x later)
  pending := by
    rw [captures]
    intro c member conn foreign x survives
    rcases inherits conn x survives with fresh | ⟨before, parent⟩
    · exact atomic.unissued c member x fresh
    · exact atomic.pending c member conn (parent ▸ foreign) x before
  done := by
    rw [captures, committed]
    exact atomic.done

variable {snapshot : Snapshot} {own : Option Nat} {xid : Nat}

theorem Atomic.capture (unissued : ∀ x, s.manager.Unissued x → snapshot.Excludes x)
    (pending : ∀ conn, own ≠ (s.session conn).parent → ∀ x ∈ (s.session conn).surviving, snapshot.Excludes x)
    (done : ∀ done ∈ s.committed, own ≠ some done.context.xid → AllOrNone snapshot done.context.retireOrder) :
    Atomic { s with captures := s.captures ++ [(own, snapshot)] } := by
  have cases {c : Option Nat × Snapshot} (member : c ∈ s.captures ++ [(own, snapshot)]) :
      c ∈ s.captures ∨ c = (own, snapshot) :=
    (mem_append.mp member).imp_right mem_singleton.mp
  refine ⟨atomic.owns.setCaptures _, fun c member => ?_, fun c member => ?_, fun c member => ?_⟩
  all_goals rcases cases member with before | rfl
  · exact atomic.unissued c before
  · exact unissued
  · exact atomic.pending c before
  · exact pending
  · exact atomic.done c before
  · exact done

theorem Atomic.whole_pending (captures : Captures s.manager own snapshot)
    (whole : ∀ conn ∈ s.sessions.keys, (s.session conn).halfCommitted = false) (conn : Nat)
    (foreign : ∀ x ∈ (s.session conn).owned, own ≠ some x) (x : Nat)
    (survives : x ∈ (s.session conn).surviving) : snapshot.Excludes x := by
  have owned := (s.session conn).surviving_subset survives
  have half : (s.session conn).halfCommitted = false := by
    by_cases present : conn ∈ s.sessions.keys
    · exact whole conn present
    · rw [session_of_not_mem present]
      rfl
  exact captures.active x (atomic.owns.held conn x (Session.surviving_held half survives))
    (atomic.owns.issued conn x owned).1 (foreign x owned)

theorem Atomic.fresh_capture (whole : ∀ conn ∈ s.sessions.keys, (s.session conn).halfCommitted = false) :
    Atomic { s with captures := s.captures ++ [(none, s.manager.freshReadSnapshot)] } := by
  have captures := freshReadSnapshot_captures atomic.owns.wellFormed
  refine atomic.capture captures.unissued (fun conn _ => ?_) fun done member _ => .inr fun x ids => ?_
  · exact atomic.whole_pending captures whole conn fun _ _ => Option.some_ne_none _ |>.symm
  · have settled := atomic.owns.settled done member x ids
    refine settled.not_excluded ?_ (Finset.Subset.refl _)
    have below : x < s.manager.nextXid := not_le.mp fun above => settled.issued (.inl above)
    simp only [freshReadSnapshot]
    omega

theorem Atomic.takeSnapshot {isolation : IsolationLevel}
    (found : s.session conn = .registered xid isolation) (untorn : s.Untorn (.takeSnapshot conn)) :
    Atomic { s.move conn (.running ⟨xid, isolation, (s.manager.snapshot xid).1, [], []⟩) .empty
        (s.manager.snapshot xid).2 with
      captures := s.captures ++ [(some xid, (s.manager.snapshot xid).1)] } := by
  obtain ⟨whole, between⟩ := untorn
  have owns := atomic.owns
  have mine : xid ∈ (s.session conn).owned := by
    rw [found]
    exact mem_singleton_self xid
  have known : xid < s.manager.nextXid :=
    not_le.mp fun above => (owns.issued conn xid mine).2 (.inl above)
  have captures := snapshot_captures owns.wellFormed known
  have quiet := snapshot_quiet s.manager xid
  have moved : Atomic (s.move conn (.running ⟨xid, isolation, (s.manager.snapshot xid).1, [], []⟩) .empty
      (s.manager.snapshot xid).2) := by
    refine atomic.carry ?_ (fun x => quiet.unissued) (inherits_move fun x survives => .inr ?_) rfl rfl
    · refine owns.regroup _ (snapshot_framed owns.wellFormed owns.known xid) ?_ ?_ ?_ trivial
      all_goals simp [found, Session.owned, Session.held, Session.surviving, TxnContext.retireOrder]
    · rw [found]
      exact ⟨survives, rfl⟩
  refine moved.capture (fun x later => captures.unissued x (quiet.unissued later)) ?_ ?_
  · intro other foreign x survives
    rw [session_move] at foreign survives
    split_ifs at foreign survives with same
    · exact absurd rfl foreign
    · refine atomic.whole_pending captures whole other (fun y owned shared => ?_) x survives
      cases shared
      exact owns.apart other conn same xid owned mine
  · intro done member _
    have settled := owns.settled done member
    rcases between xid (by rw [found]; rfl) done member with earlier | later
    · refine .inr fun x ids => (settled x ids).not_excluded (earlier x ids).le ?_
      exact Finset.union_subset_union_left (Finset.filter_subset _ _)
    · exact .inl fun x ids => ⟨(settled x ids).real, .inl (later x ids)⟩

theorem Atomic.finish_commit {context : TxnContext} (found : s.session conn = .retiring .commit context [xid])
    (finished : t = s.finish conn context (retireOne .commit s.manager xid) .commit) (owns : Owns t)
    (unissued : ∀ x, t.manager.Unissued x → s.manager.Unissued x) (inherits : ∀ conn, s.Inherits t conn) :
    Atomic t := by
  subst finished
  refine ⟨owns, fun c member x later => atomic.unissued c member x (unissued x later), ?_, ?_⟩
  · intro c member other foreign x survives
    rcases inherits other x survives with fresh | ⟨before, parent⟩
    · exact atomic.unissued c member x fresh
    · exact atomic.pending c member other (parent ▸ foreign) x before
  · intro c member done ids foreign
    rcases mem_append.mp ids with before | new
    · exact atomic.done c member done before foreign
    · rw [mem_singleton.mp new] at foreign ⊢
      have pending := atomic.pending c member conn
      rw [found] at pending
      exact .inl (pending foreign)

theorem Atomic.step (admitted : s.WholeCaptures e) (effect : System.Effect s e t) : Atomic t := by
  have owns := atomic.owns.step admitted.1 effect
  have unissued (x : Nat) := effect.unissued atomic.owns.wellFormed admitted.1 (x := x)
  have inherits := effect.inherits atomic.owns.wellFormed admitted.1
  cases effect with
  | takeSnapshot found => exact atomic.takeSnapshot found admitted.2
  | capture => exact atomic.fresh_capture admitted.2
  | @finish conn xid goal context found =>
    cases goal with
    | commit => exact atomic.finish_commit found rfl owns unissued inherits
    | rollback | resume => exact atomic.carry owns unissued inherits rfl rfl
  | begin | register | savepoint | write | release | rollbackTo | retireAll | retire | autocommit | observe
  | unchanged => exact atomic.carry owns unissued inherits rfl rfl

end

theorem commit_atomically_visible {events : List Event} {s : System}
    (run : Run (Guarded (Steps System.step) WholeCaptures) .init events s) {done : Committed}
    (finished : done ∈ s.committed) {own : Option Nat} {snapshot : Snapshot}
    (captured : (own, snapshot) ∈ s.captures) (foreign : own ≠ some done.context.xid) :
    (∀ x ∈ done.context.retireOrder, snapshot.sees x xidNone = true ∧ ∀ xmin, snapshot.sees xmin x = false) ∨
      ∀ x ∈ done.context.retireOrder, snapshot.sees x xidNone = false ∧
        ∀ xmin, snapshot.sees xmin x = snapshot.sees xmin xidNone := by
  have atomic : Atomic s := run.invariant
    (fun _ _ _ before taken => before.step taken.1 (step_effect taken.2)) Atomic.init
  have real {x : Nat} (ids : x ∈ done.context.retireOrder) : x ≠ xidNone :=
    (atomic.owns.settled done finished x ids).real
  rcases atomic.done _ captured done finished foreign with none | all
  · refine .inr fun x ids => ⟨(none x ids).created xidNone ∅, fun xmin => (none x ids).deleted xmin ∅⟩
  · refine .inl fun x ids => ⟨(Snapshot.sees_created (real ids)).mpr (all x ids), fun xmin => ?_⟩
    rw [Bool.eq_false_iff]
    exact fun seen => all x ids ((Snapshot.sees_deleted (real ids)).mp seen).2

def committingWithSavepoint : List Event :=
  [.begin 0 .snapshotIsolation, .register 0, .takeSnapshot 0, .savepoint 0 "s", .write 0, .commit 0]

theorem commit_atomically_visible_whole : ∃ s, Run (Guarded (Steps System.step) WholeCaptures) .init
        (committingWithSavepoint ++ [.capture, .retire 0, .retire 0, .capture]) s ∧
      ∃ done ∈ s.committed, done.context.retireOrder = [2, 1] ∧ s.captures.length = 3 ∧
        ∀ snapshot, (none, snapshot) ∈ s.captures →
          (snapshot.sees 2 xidNone = true ∧ snapshot.sees 1 xidNone = true) ∨
          (snapshot.sees 2 xidNone = false ∧ snapshot.sees 1 xidNone = false) := by
  obtain ⟨s, run, final⟩ := execute_reaches System.step WholeCaptures .init
    (committingWithSavepoint ++ [.capture, .retire 0, .retire 0, .capture])
    (fun s => decide (∃ done ∈ s.committed, done.context.retireOrder = [2, 1] ∧ s.captures.length = 3))
    (by decide)
  obtain ⟨done, finished, ids, count⟩ := of_decide_eq_true final
  refine ⟨s, run, done, finished, ids, count, fun snapshot captured => ?_⟩
  rcases commit_atomically_visible run finished captured (by simp) with all | none
  · exact .inl ⟨(all 2 (by simp [ids])).1, (all 1 (by simp [ids])).1⟩
  · exact .inr ⟨(none 2 (by simp [ids])).1, (none 1 (by simp [ids])).1⟩

theorem half_commit_captured : ∃ s, Run (Guarded (Steps System.step) CounterBelowMax) .init
        (committingWithSavepoint ++ [.retire 0, .capture, .retire 0]) s ∧
      ∃ done ∈ s.committed, done.context.retireOrder = [2, 1] ∧
        ∃ c ∈ s.captures, c.1 = none ∧ c.2.sees 2 xidNone = true ∧ c.2.sees 1 xidNone = false := by
  obtain ⟨s, run, final⟩ := execute_reaches System.step CounterBelowMax .init
    (committingWithSavepoint ++ [.retire 0, .capture, .retire 0])
    (fun s => decide (∃ done ∈ s.committed, done.context.retireOrder = [2, 1] ∧
      ∃ c ∈ s.captures, c.1 = none ∧ c.2.sees 2 xidNone = true ∧ c.2.sees 1 xidNone = false))
    (by decide)
  exact ⟨s, run, of_decide_eq_true final⟩

theorem ids_owned {e : List Event} (run : Run (Guarded (Steps System.step) CounterBelowMax) .init e s) : Owns s :=
  run.invariant (fun _ _ _ own taken => own.step taken.1 (step_effect taken.2)) .init

/-- Connection 0 commits with its savepoint while connection 1 is half way through its rollback. -/
theorem ids_owned_interleaved : ∃ s, Run (Guarded (Steps System.step) CounterBelowMax) .init
        (committingWithSavepoint ++ [.begin 1 .snapshotIsolation, .register 1, .takeSnapshot 1, .savepoint 1 "t",
          .rollback 1, .retire 1, .retire 0, .retire 0]) s ∧
      Owns s ∧ (s.session 1).owned = [4, 3] ∧ ∃ done ∈ s.committed, done.context.retireOrder = [2, 1] := by
  obtain ⟨s, run, final⟩ := execute_reaches System.step CounterBelowMax .init
    (committingWithSavepoint ++ [.begin 1 .snapshotIsolation, .register 1, .takeSnapshot 1, .savepoint 1 "t",
      .rollback 1, .retire 1, .retire 0, .retire 0])
    (fun s => decide ((s.session 1).owned = [4, 3] ∧ ∃ done ∈ s.committed, done.context.retireOrder = [2, 1]))
    (by decide)
  exact ⟨s, run, ids_owned run, of_decide_eq_true final⟩

end RedDB.Transaction
