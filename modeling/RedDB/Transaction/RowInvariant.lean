import RedDB.Transaction.RowTracking

namespace RedDB.Transaction

open List Library SnapshotManager Function Transaction.System WriteSet RowStore Session

namespace RowSystem

def committing (s : RowSystem) : Finset Nat := s.checked ∪ s.publication.toFinset

/-- A conflict check runs while no other transaction that wrote one of its rows is between its own
    check and the end of its commit; no statement writes a version that a finished commit has deleted. -/
def Separated (s : RowSystem) : RowEvent → Prop
  | .session e => s.core.WholeCaptures e
  | .update _ collection id | .delete _ collection id =>
    ∀ a ∈ s.commits, ∀ t ∈ a.writes.tombstones, ¬ (t.collection = collection ∧ t.id = id)
  | .check conn => ∀ other ∈ s.committing, other ≠ conn → ¬ (s.writes conn).Meets (s.writes other)
  | _ => True

instance (s : RowSystem) : (e : RowEvent) → Decidable (s.Separated e)
  | .session e => inferInstanceAs (Decidable (s.core.WholeCaptures e))
  | .update _ _ _ | .delete _ _ _ => inferInstanceAs (Decidable (∀ _ ∈ _, _))
  | .check _ => inferInstanceAs (Decidable (∀ _ ∈ _, _))
  | .insert _ _ | .rollbackTo _ _ | .rollback _ | .refuse _ | .publish _ _ | .retire _ => .isTrue trivial

def StartedBefore (s : RowSystem) (context : TxnContext) (a : RowCommit) : Prop :=
  (some context.xid, context.snapshot) ∈ s.core.captures.take a.done.capturesBefore

def Concurrent (s : RowSystem) (a b : RowCommit) : Prop :=
  s.StartedBefore b.done.context a ∧ s.StartedBefore a.done.context b

instance (s : RowSystem) (context : TxnContext) (a : RowCommit) : Decidable (s.StartedBefore context a) :=
  inferInstanceAs (Decidable (_ ∈ _))

instance (s : RowSystem) (a b : RowCommit) : Decidable (s.Concurrent a b) :=
  inferInstanceAs (Decidable (_ ∧ _))

structure Inv (s : RowSystem) : Prop where
  atomic : Atomic s.core
  wellFormed : s.store.WellFormed s.nextId
  tracked : ∀ conn, Tracked s.core s.store conn (s.writes conn)
  finished : ∀ a ∈ s.commits, Finished s.core s.store a
  checked : ∀ conn ∈ s.checked, ∃ context, s.core.session conn = .running context
  published : ∀ conn context pending, s.core.session conn = .retiring .commit context pending →
    s.publication = some conn
  holder : ∀ conn, s.publication = some conn →
    (∃ context pending, s.core.session conn = .retiring .commit context pending) ∧
      ∀ t ∈ (s.writes conn).tombstones, ∃ v ∈ s.store, v.collection = t.collection ∧ v.id = t.id ∧
        v.xmax ∈ (s.core.session conn).surviving
  apart : ∀ conn ∈ s.committing, ∀ other ∈ s.committing, conn ≠ other → ¬ (s.writes conn).Meets (s.writes other)
  overlap : ∀ a ∈ s.commits, ∀ t ∈ a.writes.tombstones, ∀ conn, ∀ p ∈ (s.writes conn).stamps,
    p.collection = t.collection → p.id = t.id → ∀ context, (s.core.session conn).txn = some context →
      s.StartedBefore context a
  clear : ∀ a ∈ s.commits, ∀ t ∈ a.writes.tombstones, ∀ conn ∈ s.committing, ∀ p ∈ (s.writes conn).stamps,
    ¬ (p.collection = t.collection ∧ p.id = t.id)
  passed : ∀ a ∈ s.commits, ∀ conn ∈ s.committing, ∀ context, (s.core.session conn).txn = some context →
    context.isolation = .snapshotIsolation → (s.writes conn).Meets a.writes → ¬ s.StartedBefore context a
  serial : s.commits.Pairwise fun a b => b.done.context.isolation = .snapshotIsolation →
    b.writes.Meets a.writes → ¬ s.StartedBefore b.done.context a

theorem Inv.init : Inv RowSystem.init where
  atomic := .init
  wellFormed := ⟨nodup_nil, fun v member => absurd member not_mem_nil⟩
  tracked := fun conn =>
    { quiet := fun _ => rfl
      stamps := fun p member => absurd member not_mem_nil
      captured := fun context found => by cases found
      ordered := fun context found => by cases found
      versions := fun context found p member => absurd member not_mem_nil
      installed := fun u member => absurd member not_mem_nil }
  finished := fun a member => absurd member not_mem_nil
  checked := fun conn member => absurd member (Finset.notMem_empty conn)
  published := fun conn context pending found => by cases found
  holder := fun conn held => by cases held
  apart := fun conn member => absurd member (Finset.notMem_empty conn)
  overlap := fun a member => absurd member not_mem_nil
  clear := fun a member => absurd member not_mem_nil
  passed := fun a member => absurd member not_mem_nil
  serial := List.Pairwise.nil

variable {s : RowSystem}

theorem startedBefore_carry {t : RowSystem} {a : RowCommit} (finished : Finished s.core s.store a)
    (carries : s.core.Carries t.core) (context : TxnContext) :
    t.StartedBefore context a ↔ s.StartedBefore context a := by
  unfold StartedBefore
  rw [take_of_beginning carries.captures finished.early]

theorem Inv.not_detached {conn x : Nat} (survives : x ∈ (s.core.session conn).surviving) : ¬ Detached s.core x :=
  fun detached => detached.2 conn survives

theorem Inv.foreign (inv : Inv s) {conn other x : Nat} (different : other ≠ conn)
    (survives : x ∈ (s.core.session conn).surviving) : x ∉ (s.core.session other).surviving := by
  intro shared
  exact inv.atomic.owns.apart conn other different.symm x
    ((s.core.session conn).surviving_subset survives) ((s.core.session other).surviving_subset shared)

theorem Inv.frame {t : RowSystem} (inv : Inv s) (conn : Nat) (touched : String → Nat → Prop)
    (atomic : Atomic t.core) (wellFormed : t.store.WellFormed t.nextId) (carries : s.core.Carries t.core)
    (commits : t.commits = s.commits)
    (others : ∀ other, other ≠ conn → t.core.session other = s.core.session other ∧ t.writes other = s.writes other)
    (committing : ∀ other ∈ t.committing, other ∈ s.committing ∧
      (t.core.session other).txn = (s.core.session other).txn ∧ t.writes other = s.writes other)
    (frame : RowStore.Frame (· ∈ (s.core.session conn).surviving) touched s.store t.store)
    (untouched : ∀ a ∈ s.commits, ∀ d ∈ a.writes.tombstones, ¬ touched d.collection d.id)
    (actor : Tracked t.core t.store conn (t.writes conn))
    (overlap : ∀ a ∈ s.commits, ∀ d ∈ a.writes.tombstones, ∀ p ∈ (t.writes conn).stamps,
      p.collection = d.collection → p.id = d.id → ∀ context, (t.core.session conn).txn = some context →
        s.StartedBefore context a)
    (checked : ∀ conn ∈ t.checked, ∃ context, t.core.session conn = .running context)
    (published : ∀ conn context pending, t.core.session conn = .retiring .commit context pending →
      t.publication = some conn)
    (holder : ∀ conn, t.publication = some conn →
      (∃ context pending, t.core.session conn = .retiring .commit context pending) ∧
        ∀ d ∈ (t.writes conn).tombstones, ∃ v ∈ t.store, v.collection = d.collection ∧ v.id = d.id ∧
          v.xmax ∈ (t.core.session conn).surviving) : Inv t where
  atomic := atomic
  wellFormed := wellFormed
  tracked := by
    intro other
    by_cases same : other = conn
    · exact same ▸ actor
    · obtain ⟨session, writes⟩ := others other same
      rw [writes]
      refine (inv.tracked other).frame carries (by rw [session]) (by rw [session]; exact List.Subset.refl _) frame ?_
      exact fun x own => ⟨inv.foreign same own, not_detached own⟩
  finished := by
    rw [commits]
    intro a member
    exact (inv.finished a member).frame inv.atomic.owns carries frame (fun x own => not_detached own)
      (untouched a member)
  checked := checked
  published := published
  holder := holder
  apart := by
    intro first member second member' different
    rw [(committing first member).2.2, (committing second member').2.2]
    exact inv.apart first (committing first member).1 second (committing second member').1 different
  overlap := by
    rw [commits]
    intro a member d deleted other p written collection id context txn
    rw [startedBefore_carry (inv.finished a member) carries]
    by_cases same : other = conn
    · subst same
      exact overlap a member d deleted p written collection id context txn
    · obtain ⟨session, writes⟩ := others other same
      rw [writes] at written
      rw [session] at txn
      exact inv.overlap a member d deleted other p written collection id context txn
  clear := by
    rw [commits]
    intro a member d deleted other member' p written
    rw [(committing other member').2.2] at written
    exact inv.clear a member d deleted other (committing other member').1 p written
  passed := by
    rw [commits]
    intro a member other member' context txn level meets
    obtain ⟨before, same, writes⟩ := committing other member'
    rw [writes] at meets
    rw [same] at txn
    rw [startedBefore_carry (inv.finished a member) carries]
    exact inv.passed a member other before context txn level meets
  serial := by
    rw [commits]
    refine inv.serial.imp_of_mem fun {a b} member _ apart level meets => ?_
    rw [startedBefore_carry (inv.finished a member) carries]
    exact apart level meets

section

variable {s t : RowSystem} {conn : Nat} {touched : String → Nat → Prop}

theorem Inv.holder_frame (inv : Inv s) (idle : s.publication ≠ some conn) (others : ∀ other, other ≠ conn →
      t.core.session other = s.core.session other ∧ t.writes other = s.writes other)
    (frame : RowStore.Frame (· ∈ (s.core.session conn).surviving) touched s.store t.store)
    (quiet : ∀ other, s.publication = some other → ∀ collection id, ¬ touched collection id) (other : Nat)
    (held : s.publication = some other) :
    (∃ context pending, t.core.session other = .retiring .commit context pending) ∧
      ∀ d ∈ (t.writes other).tombstones, ∃ v ∈ t.store, v.collection = d.collection ∧ v.id = d.id ∧
        v.xmax ∈ (t.core.session other).surviving := by
  have different : other ≠ conn := fun same => idle (same ▸ held)
  obtain ⟨session, writes⟩ := others other different
  obtain ⟨⟨context, pending, retiring⟩, stamped⟩ := inv.holder other held
  have foreign (x : Nat) (own : x ∈ (s.core.session conn).surviving) :
      x ∉ (s.core.session other).surviving ∧ ¬ Detached s.core x :=
    ⟨inv.foreign different own, not_detached own⟩
  rw [session, writes]
  refine ⟨⟨context, pending, retiring⟩, fun d deleted => ?_⟩
  obtain ⟨v, stored, collection, id, stamp⟩ := stamped d deleted
  have txn : (s.core.session other).txn = some context := by rw [retiring]; rfl
  obtain ⟨w, stored', collection', id', -, -, elsewhere⟩ :=
    (inv.tracked other).version foreign txn (mem_append_right _ deleted)
  have same := inv.wellFormed.eq_of_id stored stored' (collection'.trans collection.symm) (id'.trans id.symm)
  subst same
  obtain ⟨kept, later, same, change⟩ := frame.kept v stored elsewhere
  refine ⟨kept, later, same.collection.trans collection, same.id.trans id, ?_⟩
  rcases change with unchanged | own | changed
  · rwa [unchanged]
  · exact absurd stamp (foreign _ own).1
  · exact absurd changed (quiet other held _ _)

theorem Inv.outside (inv : Inv s) (conn : Nat) (touched : String → Nat → Prop) (atomic : Atomic t.core)
    (wellFormed : t.store.WellFormed t.nextId)
    (carries : s.core.Carries t.core) (commits : t.commits = s.commits)
    (others : ∀ other, other ≠ conn → t.core.session other = s.core.session other ∧ t.writes other = s.writes other)
    (publication : t.publication = s.publication) (idle : s.publication ≠ some conn)
    (checked : t.checked ⊆ s.checked) (left : conn ∉ t.checked)
    (retiring : ∀ context pending, t.core.session conn ≠ .retiring .commit context pending)
    (frame : RowStore.Frame (· ∈ (s.core.session conn).surviving) touched s.store t.store)
    (untouched : ∀ a ∈ s.commits, ∀ d ∈ a.writes.tombstones, ¬ touched d.collection d.id)
    (quiet : ∀ other, s.publication = some other → ∀ collection id, ¬ touched collection id)
    (actor : Tracked t.core t.store conn (t.writes conn))
    (overlap : ∀ a ∈ s.commits, ∀ d ∈ a.writes.tombstones, ∀ p ∈ (t.writes conn).stamps,
      p.collection = d.collection → p.id = d.id → ∀ context, (t.core.session conn).txn = some context →
        s.StartedBefore context a) : Inv t := by
  refine inv.frame conn touched atomic wellFormed carries commits others (fun other member => ?_) frame untouched actor
    overlap (fun other member => ?_) (fun other context pending found => ?_) ?_
  · have different : other ≠ conn := by
      rintro rfl
      rcases Finset.mem_union.mp member with member | held
      · exact left member
      · exact idle (publication ▸ Option.mem_toFinset.mp held)
    obtain ⟨session, writes⟩ := others other different
    refine ⟨?_, by rw [session], writes⟩
    rw [committing, publication] at member
    exact Finset.union_subset_union_left checked member
  · have different : other ≠ conn := fun same => left (same ▸ member)
    rw [(others other different).1]
    exact inv.checked other (checked member)
  · have different : other ≠ conn := fun same => retiring context pending (same ▸ found)
    rw [(others other different).1] at found
    rw [publication]
    exact inv.published other context pending found
  · rw [publication]
    exact inv.holder_frame idle others frame quiet

end

section

variable {s : RowSystem} {conn : Nat}

theorem Inv.not_holder (inv : Inv s)
    (elsewhere : ∀ context pending, s.core.session conn ≠ .retiring .commit context pending) :
    s.publication ≠ some conn := by
  intro held
  obtain ⟨⟨context, pending, found⟩, -⟩ := inv.holder conn held
  exact elsewhere context pending found

theorem Inv.not_checked (inv : Inv s) (elsewhere : ∀ context, s.core.session conn ≠ .running context) :
    conn ∉ s.checked := by
  intro member
  obtain ⟨context, found⟩ := inv.checked conn member
  exact elsewhere context found

structure Advances (s : RowSystem) (core : System) (conn : Nat) : Prop where
  unchecked : conn ∉ s.checked
  before : ∀ context pending, s.core.session conn ≠ .retiring .commit context pending
  after : ∀ context pending, core.session conn ≠ .retiring .commit context pending
  tracked : Tracked core s.store conn (s.writes conn)
  snapshot : ∀ context, (core.session conn).txn = some context → s.writes conn = .empty ∨
    ∃ earlier, (s.core.session conn).txn = some earlier ∧ earlier.xid = context.xid ∧
      earlier.snapshot = context.snapshot

variable {core : System}

section

variable (inv : Inv s)
include inv

theorem Inv.withCore (conn : Nat) (atomic : Atomic core) (carries : s.core.Carries core)
    (others : ∀ other, other ≠ conn → core.session other = s.core.session other)
    (actor : core.session conn = s.core.session conn ∨ Advances s core conn) : Inv { s with core } := by
  rcases actor with same | advances
  · have all (other : Nat) : core.session other = s.core.session other := by
      by_cases here : other = conn
      · exact here ▸ same
      · exact others other here
    refine inv.frame conn (fun _ _ => False) atomic inv.wellFormed carries rfl
      (fun other _ => ⟨all other, rfl⟩) (fun other member => ⟨member, by rw [all], rfl⟩) (.refl s.store)
      (fun _ _ _ _ => id) ?_ ?_ ?_ ?_ ?_
    · exact (inv.tracked conn).carry carries (by rw [all]) (by rw [all]; exact List.Subset.refl _)
    · intro a member d deleted p written collection id context txn
      rw [all] at txn
      exact inv.overlap a member d deleted conn p written collection id context txn
    · intro other member
      rw [all]
      exact inv.checked other member
    · intro other context pending found
      rw [all] at found
      exact inv.published other context pending found
    · intro other held
      rw [all]
      exact inv.holder other held
  · refine inv.outside conn (fun _ _ => False) atomic inv.wellFormed carries rfl
      (fun other different => ⟨others other different, rfl⟩) rfl (inv.not_holder advances.before)
      (Finset.Subset.refl _) advances.unchecked advances.after (.refl s.store) (fun _ _ _ _ => id)
      (fun _ _ _ _ => id) advances.tracked ?_
    intro a member d deleted p written collection id context txn
    rcases advances.snapshot context txn with none | ⟨earlier, before, xid, snapshot⟩
    · rw [none] at written
      exact absurd written not_mem_nil
    · have started := inv.overlap a member d deleted conn p written collection id earlier before
      rwa [StartedBefore, xid, snapshot] at started

theorem Inv.move {σ : Session} {j : Journal} {m : SnapshotManager}
    (atomic : Atomic (s.core.move conn σ j m)) (carries : s.core.Carries (s.core.move conn σ j m))
    (advances : Advances s (s.core.move conn σ j m) conn) : Inv { s with core := s.core.move conn σ j m } :=
  inv.withCore conn atomic carries (fun other different => by rw [session_move, if_neg different])
    (.inr advances)

theorem Inv.advances_early (unchecked : conn ∉ s.checked)
    (before : (s.core.session conn).txn = none) (after : (core.session conn).txn = none) :
    Advances s core conn where
  unchecked := unchecked
  before := fun context pending found => by
    rw [found] at before
    cases before
  after := fun context pending found => by
    rw [found] at after
    cases after
  tracked := by
    rw [(inv.tracked conn).quiet before]
    refine .empty ?_ ?_ <;> simp [after]
  snapshot := fun context found => .inl ((inv.tracked conn).quiet before)

theorem Inv.takeSnapshot {xid : Nat} {isolation : IsolationLevel}
    (found : s.core.session conn = .registered xid isolation) (unchecked : conn ∉ s.checked)
    (running : core.session conn = .running ⟨xid, isolation, (s.core.manager.snapshot xid).1, [], []⟩)
    (captured : (some xid, (s.core.manager.snapshot xid).1) ∈ core.captures) : Advances s core conn := by
  have quiet : s.writes conn = .empty := (inv.tracked conn).quiet (by rw [found]; rfl)
  refine ⟨unchecked, by simp [found], by simp [running], ?_, fun _ _ => .inl quiet⟩
  rw [quiet]
  refine .empty (fun context known => ?_) (fun context known => ?_)
  all_goals
    rw [running] at known
    cases known
  · exact captured
  · exact List.Pairwise.nil

theorem Inv.advances_running {context left : TxnContext}
    (unchecked : conn ∉ s.checked) (carries : s.core.Carries core)
    (found : s.core.session conn = .running context) (found' : core.session conn = .running left)
    (xid : left.xid = context.xid) (snapshot : left.snapshot = context.snapshot)
    (isolation : left.isolation = context.isolation) (ids : context.retireOrder ⊆ left.retireOrder)
    (ordered : left.savepoints.Pairwise fun outer inner => outer.2 < inner.2)
    (above : ∀ savepoint ∈ left.savepoints,
      savepoint ∈ context.savepoints ∨ ∀ x ∈ context.retireOrder, x < savepoint.2) :
    Advances s core conn where
  unchecked := unchecked
  before := by simp [found]
  after := by simp [found']
  tracked := (inv.tracked conn).savepoints carries found found' xid snapshot isolation ids ordered above
  snapshot := by
    intro other known
    rw [found'] at known
    cases known
    exact .inr ⟨context, by rw [found]; rfl, xid.symm, snapshot.symm⟩

theorem Inv.below {context : TxnContext} (found : s.core.session conn = .running context) {x : Nat}
    (member : x ∈ context.retireOrder) : x < s.core.manager.nextXid := by
  have owned : x ∈ (s.core.session conn).owned := by
    rw [found]
    exact member
  exact not_le.mp fun above => (inv.atomic.owns.issued conn x owned).2 (.inl above)

theorem Inv.core_step {e : Event} (admitted : s.core.WholeCaptures e)
    (taken : s.core.step e = some core) : Atomic core ∧ s.core.Carries core := by
  have effect := step_effect taken
  exact ⟨inv.atomic.step admitted effect, effect.carries inv.atomic.owns.wellFormed admitted.1⟩

theorem Inv.session_step {e : Event} (admitted : s.core.WholeCaptures e)
    (forwards : s.forwards e = true) (taken : s.core.step e = some core) : Inv { s with core } := by
  obtain ⟨atomic, carries⟩ := inv.core_step admitted taken
  cases e with
  | begin conn isolation | register conn =>
    have unchecked : conn ∉ s.checked := of_decide_eq_true forwards
    cases found : s.core.session conn <;> simp only [System.step, found, reduceCtorEq] at taken
    cases taken
    exact inv.move atomic carries (inv.advances_early unchecked (by rw [found]; rfl) (by simp [Session.txn]))
  | takeSnapshot conn =>
    have unchecked : conn ∉ s.checked := of_decide_eq_true forwards
    cases found : s.core.session conn <;> simp only [System.step, found, reduceCtorEq] at taken
    rename_i xid isolation
    cases taken
    refine inv.withCore conn atomic carries (fun other different => ?_)
      (.inr (inv.takeSnapshot found unchecked ?_ ?_))
    · exact (session_move _ _ _ _ _ s.core.manager).trans (if_neg different)
    · exact (session_move _ _ _ _ _ s.core.manager).trans (if_pos rfl)
    · exact mem_append_right _ mem_cons_self
  | savepoint conn name =>
    have unchecked : conn ∉ s.checked := of_decide_eq_true forwards
    cases found : s.core.session conn <;> simp only [System.step, found, reduceCtorEq] at taken
    rename_i context
    cases taken
    have ids := TxnContext.pushSavepoint_retireOrder context name s.core.manager.begin.1
    refine inv.move atomic carries (inv.advances_running unchecked carries found
      ((session_move _ _ _ _ _ _).trans (if_pos rfl)) rfl rfl rfl ?_ ?_ ?_)
    · exact fun x member => ids.symm.subset (mem_cons_of_mem _ member)
    · have ordered := (inv.tracked conn).ordered context (by rw [found]; rfl)
      refine pairwise_append.mpr ⟨ordered, pairwise_singleton _ _, ?_⟩
      intro outer opened inner new
      rw [mem_singleton.mp new]
      refine inv.below found (mem_append_left _ (mem_append_left _ ?_))
      exact mem_map_of_mem opened
    · intro savepoint opened
      refine (mem_append.mp opened).imp_right fun new x member => ?_
      rw [mem_singleton.mp new]
      exact inv.below found member
  | release conn name =>
    have unchecked : conn ∉ s.checked := of_decide_eq_true forwards
    cases found : s.core.session conn <;> simp only [System.step, found, reduceCtorEq] at taken
    rename_i context
    cases split : context.releaseSavepoint name <;> simp only [split] at taken
    · cases taken
      exact inv
    · cases taken
      have perm := TxnContext.releaseSavepoint_retireOrder split
      obtain ⟨-, left⟩ := TxnContext.releaseSavepoint_ok split
      have below : context.below name <+: context.savepoints := takeWhile_prefix _
      refine inv.move atomic carries (inv.advances_running unchecked carries found
        ((session_move _ _ _ _ _ _).trans (if_pos rfl)) ?_ ?_ ?_ perm.symm.subset ?_ ?_)
      all_goals rw [left]
      · exact ((inv.tracked conn).ordered context (by rw [found]; rfl)).sublist below.sublist
      · exact fun savepoint opened => .inl (below.subset opened)
  | capture | autocommit | observe =>
    cases taken
    exact inv.withCore 0 atomic carries (fun _ _ => rfl) (.inl rfl)
  | write | rollbackTo | commit | refuse | rollback | retire => cases forwards

end

end

section

variable {s : RowSystem} {conn : Nat} {context : TxnContext}

theorem Inv.excludes_pending (inv : Inv s) (found : s.core.session conn = .running context)
    (free : s.publication = none) {x : Nat}
    (later : s.core.manager.Unissued x ∨ ∃ other, other ≠ conn ∧ x ∈ (s.core.session other).surviving) :
    (s.currentSnapshot context).Excludes x := by
  have owns := inv.atomic.owns
  unfold currentSnapshot
  split_ifs with readCommitted
  · have captures := freshReadSnapshot_captures owns.wellFormed
    rcases later with unissued | ⟨other, -, survives⟩
    · exact captures.unissued x unissued
    · have whole : (s.core.session other).halfCommitted = false := by
        cases session : s.core.session other with
        | retiring goal context pending =>
          cases goal with
          | commit => rw [inv.published other context pending session] at free; cases free
          | rollback | resume => rfl
        | idle | allocated | registered | running => rfl
      have owned := (s.core.session other).surviving_subset survives
      exact captures.active x (owns.held other x (surviving_held whole survives))
        (owns.issued other x owned).1 (Option.some_ne_none x).symm
  · have captured := (inv.tracked conn).captured context (by rw [found]; rfl)
    rcases later with unissued | ⟨other, different, survives⟩
    · exact inv.atomic.unissued _ captured x unissued
    · refine inv.atomic.pending _ captured other (fun parent => ?_) x survives
      have mine : context.xid ∈ (s.core.session conn).owned := parent_mem_owned (by rw [found]; rfl)
      exact owns.apart other conn different _ (parent_mem_owned parent.symm) mine

variable {collection : String} {id : Nat}

theorem Inv.target_spec (inv : Inv s) {v : RowVersion} (target : s.target conn collection id = some (context, v)) :
    s.core.session conn = .running context ∧ conn ∉ s.checked ∧ s.publication = none ∧ v ∈ s.store ∧
      v.collection = collection ∧ v.id = id ∧ (v.xmin ∈ context.retireOrder ∨
        Detached s.core v.xmin ∧ (context.isolation ≠ .readCommitted → ¬ context.snapshot.Excludes v.xmin)) := by
  unfold RowSystem.target at target
  split at target
  · rename_i running stored found get
    split_ifs at target with allowed
    cases target
    obtain ⟨unchecked, free, visible⟩ := allowed
    obtain ⟨member, collection, id⟩ := get?_mem get
    refine ⟨found, unchecked, free, member, collection, id, ?_⟩
    by_cases own : v.xmin ∈ context.retireOrder
    · exact .inl own
    · have seen : ¬ (s.currentSnapshot context).Excludes v.xmin :=
        (visibilityCheck_creator visible).resolve_left (own ∘ TxnContext.mem_ownXids.mp)
      have pending := inv.excludes_pending found free (x := v.xmin)
      refine .inr ⟨⟨fun unissued => seen (pending (.inl unissued)), fun other survives => ?_⟩, fun fixed => ?_⟩
      · by_cases same : other = conn
        · rw [same, found] at survives
          exact own survives
        · exact seen (pending (.inr ⟨other, same, survives⟩))
      · rwa [currentSnapshot, if_neg fixed] at seen
  · cases target

theorem write_sessions {core core' : System} (taken : core.step (.write conn) = some core') (other : Nat) :
    core'.session other = core.session other := by
  cases found : core.session conn <;> simp only [System.step, found, reduceCtorEq] at taken
  cases taken
  rw [session_move]
  split_ifs with same
  · rw [same, found]
  · rfl

theorem Inv.statement (inv : Inv s) (found : s.core.session conn = .running context)
    (unchecked : conn ∉ s.checked) (free : s.publication = none) {core : System}
    (taken : s.core.step (.write conn) = some core) (touched : String → Nat → Prop) {store : RowStore}
    {nextId : Nat} {more : WriteSet} (wellFormed : store.WellFormed nextId)
    (frame : ∀ mine, RowStore.Frame mine touched s.store store)
    (untouched : ∀ a ∈ s.commits, ∀ d ∈ a.writes.tombstones, ¬ touched d.collection d.id)
    (adds : ∀ p ∈ more.stamps, p ∈ (s.writes conn).stamps ∨ touched p.collection p.id)
    (writes : Tracked core store conn (s.writes conn) → Tracked core store conn more) :
    Inv { s.withWrites conn more with core, store, nextId } := by
  obtain ⟨atomic, carries⟩ := inv.core_step (e := .write conn) ⟨trivial, trivial⟩ taken
  have sessions := write_sessions taken
  have tracked : Tracked core store conn (s.writes conn) :=
    (inv.tracked conn).frame carries (by rw [sessions]) (by rw [sessions]; exact List.Subset.refl _)
      (frame fun _ => False) fun _ none => none.elim
  refine inv.outside conn touched atomic wellFormed carries rfl
    (fun other different => ⟨sessions other, update_of_ne different _ _⟩) rfl (by simp [free])
    (Finset.Subset.refl _) unchecked ?_ (frame _) untouched ?_ ?_ ?_
  · intro context pending retiring
    rw [sessions, found] at retiring
    cases retiring
  · intro other held
    rw [free] at held
    cases held
  · simp only [withWrites, update_self]
    exact writes tracked
  · intro a member d deleted p written collection id context txn
    simp only [withWrites, update_self] at written
    rcases adds p written with before | changed
    · rw [sessions] at txn
      exact inv.overlap a member d deleted conn p before collection id context txn
    · rw [collection, id] at changed
      exact absurd changed (untouched a member d deleted)

variable {t : RowSystem}

theorem Inv.insert_step (inv : Inv s) (taken : s.step (.insert conn collection) = some t) : Inv t := by
  simp only [step] at taken
  split at taken
  · rename_i context found
    split_ifs at taken with blocked
    rw [not_or, not_not] at blocked
    obtain ⟨core, stepped, rfl⟩ := Option.map_eq_some_iff.mp taken
    have inserted := inv.statement found blocked.1 blocked.2 stepped (fun _ _ => False)
      (inv.wellFormed.append collection s.nextId context.writerXid xidNone)
      (fun mine => (RowStore.Frame.refl s.store).append _) (fun _ _ _ _ => id) (fun p member => .inl member) id
    rwa [withWrites, update_eq_self] at inserted
  · cases taken

theorem Inv.update_step (inv : Inv s) (separated : s.Separated (.update conn collection id))
    (taken : s.step (.update conn collection id) = some t) : Inv t := by
  obtain ⟨⟨context, v⟩, target, taken⟩ := Option.bind_eq_some_iff.mp taken
  obtain ⟨core, stepped, taken⟩ := Option.bind_eq_some_iff.mp taken
  cases taken
  obtain ⟨found, unchecked, free, stored, rfl, rfl, seen⟩ := inv.target_spec target
  have running : core.session conn = .running context := (write_sessions stepped conn).trans found
  have carries := (inv.core_step (e := .write conn) ⟨trivial, trivial⟩ stepped).2
  refine inv.statement found unchecked free stepped (fun collection id => collection = v.collection ∧ id = v.id)
    ((inv.wellFormed.setXmax _ _ _).append _ _ _ _)
    (fun mine => (setXmax_frame s.store _ _ (.inl ⟨rfl, rfl⟩)).append _) separated
    (fun p member => ?_) fun tracked => ?_
  · exact (mem_stamps_update member).imp_right fun new => by rw [new]; exact ⟨rfl, rfl⟩
  · obtain ⟨w, member, same, -⟩ := setXmax_mem stored v.collection v.id fun _ => context.writerXid
    refine tracked.write running rfl (fun p => mem_stamps_update) (fun u member => ?_)
      (mem_append_left _ member) same.collection same.id same.logicalId ?_
    · rcases mem_append.mp member with before | new
      · exact tracked.installed u before
      · rw [mem_singleton.mp new]
        exact ⟨_, mem_append_right _ mem_cons_self, rfl, rfl, rfl, rfl⟩
    · rw [same.xmin]
      exact seen.imp_right (And.imp_left (carries.detached _))

theorem Inv.delete_step (inv : Inv s) (separated : s.Separated (.delete conn collection id))
    (taken : s.step (.delete conn collection id) = some t) : Inv t := by
  obtain ⟨⟨context, v⟩, target, taken⟩ := Option.bind_eq_some_iff.mp taken
  obtain ⟨core, stepped, taken⟩ := Option.bind_eq_some_iff.mp taken
  cases taken
  obtain ⟨found, unchecked, free, stored, rfl, rfl, seen⟩ := inv.target_spec target
  have running : core.session conn = .running context := (write_sessions stepped conn).trans found
  have carries := (inv.core_step (e := .write conn) ⟨trivial, trivial⟩ stepped).2
  refine inv.statement found unchecked free stepped (fun collection id => collection = v.collection ∧ id = v.id)
    (inv.wellFormed.setXmax _ _ _) (fun mine => setXmax_frame s.store _ _ (.inl ⟨rfl, rfl⟩)) separated
    (fun p member => ?_) fun tracked => ?_
  · exact (mem_stamps_tombstone member).imp_right fun new => by rw [new]; exact ⟨rfl, rfl⟩
  · obtain ⟨w, member, same, -⟩ := setXmax_mem stored v.collection v.id fun _ => context.writerXid
    refine tracked.write running rfl (fun p => mem_stamps_tombstone) tracked.installed member same.collection
      same.id same.logicalId ?_
    rw [same.xmin]
    exact seen.imp_right (And.imp_left (carries.detached _))

end

section

variable {s : RowSystem} {conn : Nat} {context : TxnContext}

theorem Inv.created (inv : Inv s) {u : PendingUpdate} (member : u ∈ (s.writes conn).updates) {v : RowVersion}
    (stored : v ∈ s.store) (collection : v.collection = u.collection) (id : v.id = u.newId) : v.xmin = u.xid := by
  obtain ⟨w, installed, collection', id', -, created⟩ := (inv.tracked conn).installed u member
  rw [← created, inv.wellFormed.eq_of_id installed stored (collection.trans collection'.symm) (id.trans id'.symm)]

theorem Inv.abandon_step (inv : Inv s) {e : Event} (retires : e = .rollback conn ∨ e = .refuse conn) {t : RowSystem}
    (taken : s.abandon conn e = some t) : Inv t := by
  obtain ⟨core, stepped, rfl⟩ := Option.map_eq_some_iff.mp taken
  have whole : s.core.WholeCaptures e := by
    rcases retires with rfl | rfl <;> exact ⟨trivial, trivial⟩
  obtain ⟨atomic, carries⟩ := inv.core_step whole stepped
  have moved : ∃ context, s.core.session conn = .running context ∧
      core = s.core.move conn (.retiring .rollback context context.retireOrder) (s.core.journal conn)
        s.core.manager := by
    rcases retires with rfl | rfl
    all_goals
      cases found : s.core.session conn <;> simp only [System.step, found, reduceCtorEq] at stepped
      cases stepped
      exact ⟨_, rfl, rfl⟩
  obtain ⟨context, found, rfl⟩ := moved
  have tracked := inv.tracked conn
  have txn : (s.core.session conn).txn = some context := by rw [found]; rfl
  have revived : RowStore.Frame (· ∈ (s.core.session conn).surviving) (fun _ _ => False) s.store
      (s.store.revive (s.writes conn)) := by
    refine (revive_frame tracked.stamps fun u member v stored collection id => ?_).1
    rw [inv.created member stored collection id]
    exact tracked.stamps _ (mem_stamps_of_update member)
  refine inv.outside conn (fun _ _ => False) atomic (inv.wellFormed.revive _) carries rfl
    (fun other different => ⟨?_, update_of_ne different _ _⟩) rfl (inv.not_holder (by simp [found]))
    (Finset.erase_subset _ _) (Finset.notMem_erase _ _) (by simp) revived (fun _ _ _ _ => id)
    (fun _ _ _ _ => id) ?_ ?_
  · rw [session_move, if_neg different]
  · simp only [withWrites, update_self]
    refine .empty (fun left known => ?_) fun left known => ?_
    all_goals
      rw [session_move, if_pos rfl] at known
      cases known
    · exact tracked.captured context txn
    · exact tracked.ordered context txn
  · simp only [withWrites, update_self]
    exact fun _ _ _ _ _ written => absurd written not_mem_nil

theorem Inv.rollbackTo_step (inv : Inv s) {name : String} {t : RowSystem}
    (taken : s.step (.rollbackTo conn name) = some t) : Inv t := by
  simp only [step] at taken
  split at taken
  · rename_i context found
    split_ifs at taken with unchecked
    split at taken
    · cases taken
      exact inv
    · rename_i rollback left split
      obtain ⟨core, stepped, rfl⟩ := Option.map_eq_some_iff.mp taken
      obtain ⟨atomic, carries⟩ := inv.core_step (e := .rollbackTo conn name) ⟨trivial, trivial⟩ stepped
      simp only [System.step, found, split, Option.some.injEq] at stepped
      subst stepped
      have tracked := inv.tracked conn
      have surviving : (s.core.session conn).surviving = context.retireOrder := by rw [found]; rfl
      have frame : RowStore.Frame (fun x => x ∈ context.retireOrder ∧ rollback.savepointXid ≤ x)
          (fun _ _ => False) s.store
          (s.store.revive ((s.writes conn).filter (rollback.savepointXid ≤ ·))) := by
        refine (revive_frame (fun p member => ?_) fun u member v stored collection id => ?_).1
        · obtain ⟨before, inner⟩ := mem_stamps_filter member
          exact ⟨surviving ▸ tracked.stamps p before, of_decide_eq_true inner⟩
        · obtain ⟨before, inner⟩ := mem_filter.mp member
          rw [inv.created before stored collection id]
          exact ⟨surviving ▸ tracked.stamps _ (mem_stamps_of_update before), of_decide_eq_true inner⟩
      refine inv.outside conn (fun _ _ => False) atomic (inv.wellFormed.revive _) carries rfl
        (fun other different => ⟨?_, update_of_ne different _ _⟩) rfl (inv.not_holder (by simp [found]))
        (Finset.Subset.refl _) unchecked (by simp) (frame.mono fun x mine => surviving ▸ mine.1)
        (fun _ _ _ _ => id) (fun _ _ _ _ => id) ?_ ?_
      · rw [session_move, if_neg different]
      · simp only [withWrites, update_self]
        exact tracked.rollbackTo carries found ((session_move _ _ _ _ _ _).trans (if_pos rfl)) split frame
      · simp only [withWrites, update_self]
        intro a member d deleted p written collection id other known
        rw [session_move, if_pos rfl] at known
        cases known
        obtain ⟨-, -, rest⟩ := TxnContext.rollbackToSavepoint_ok split
        rw [rest]
        exact inv.overlap a member d deleted conn p (mem_stamps_filter written).1 collection id context
          (by rw [found]; rfl)
  · cases taken

end

end RowSystem

end RedDB.Transaction
