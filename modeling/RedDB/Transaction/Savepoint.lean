import RedDB.Transaction.Ownership

namespace RedDB.Transaction

open List Library SnapshotManager Transaction.System

/-- An open savepoint against its frame in the nesting: the writes made before it are the ones
    stamped below its id. -/
def Aligned (stamps : List Nat) (savepoint frame : String × Nat) : Prop :=
  savepoint.1 = frame.1 ∧ frame.2 ≤ stamps.length ∧ ∀ i x, stamps[i]? = some x → (i < frame.2 ↔ x < savepoint.2)

/-- What a running transaction's ids say of its writes; those in `dying` are about to be aborted. -/
structure Consistent (m : SnapshotManager) (context : TxnContext) (j : Journal) (dying : List Nat) : Prop where
  sorted : context.savepoints.Pairwise fun a b => a.2 < b.2
  above : ∀ p ∈ context.savepoints, context.xid < p.2
  aligned : List.Forall₂ (Aligned j.stamps) context.savepoints.reverse j.nesting.frames
  issued : ∀ x ∈ j.stamps, x ≠ xidNone ∧ ¬ m.Unissued x
  live : ∀ i ∈ j.nesting.live, ∃ x, j.stamps[i]? = some x ∧ x ∈ context.retireOrder
  dead : ∀ i x, j.stamps[i]? = some x → i ∉ j.nesting.live → x ∈ m.aborted ∨ x ∈ dying

variable {m m' : SnapshotManager} {context : TxnContext} {j : Journal}

theorem Consistent.mono {dying fewer : List Nat} (consistent : Consistent m context j dying)
    (unissued : ∀ x, m'.Unissued x → m.Unissued x) (aborted : m.aborted ⊆ m'.aborted)
    (gone : ∀ x ∈ dying, x ∈ m'.aborted ∨ x ∈ fewer) : Consistent m' context j fewer where
  sorted := consistent.sorted
  above := consistent.above
  aligned := consistent.aligned
  issued := fun x member =>
    ⟨(consistent.issued x member).1, fun later => (consistent.issued x member).2 (unissued x later)⟩
  live := consistent.live
  dead := by
    intro i x stamp absent
    rcases consistent.dead i x stamp absent with before | pending
    · exact .inl (aborted before)
    · exact gone x pending

theorem Consistent.begin (m : SnapshotManager) (xid : Nat) (isolation : IsolationLevel) (snapshot : Snapshot) :
    Consistent m ⟨xid, isolation, snapshot, [], []⟩ .empty [] := by
  constructor <;> simp [Journal.empty, Nesting.empty]

theorem Aligned.append {stamps : List Nat} {savepoint frame : String × Nat}
    (aligned : Aligned stamps savepoint frame) {x : Nat} (later : savepoint.2 ≤ x) :
    Aligned (stamps ++ [x]) savepoint frame := by
  refine ⟨aligned.1, by simp only [length_append]; exact aligned.2.1.trans (Nat.le_add_right _ _), ?_⟩
  intro i y stamp
  by_cases before : i < stamps.length
  · rw [getElem?_append_left before] at stamp
    exact aligned.2.2 i y stamp
  · have last : y = x := by
      rw [getElem?_append_right (not_lt.mp before)] at stamp
      exact (mem_singleton.mp (mem_of_getElem? stamp))
    have mark := aligned.2.1
    subst last
    constructor
    · intro inside
      omega
    · intro below
      omega

theorem TxnContext.writerXid_cases (c : TxnContext) :
    (c.savepoints = [] ∧ c.writerXid = c.xid) ∨ ∃ p ∈ c.savepoints, c.writerXid = p.2 ∧
      ∃ outer, c.savepoints = outer ++ [p] := by
  rcases eq_nil_or_concat c.savepoints with empty | ⟨outer, p, split⟩
  · left
    simp [TxnContext.writerXid, empty]
  · right
    rw [concat_eq_append] at split
    refine ⟨p, by simp [split], ?_, outer, split⟩
    simp [TxnContext.writerXid, split]

theorem TxnContext.writerXid_mem (c : TxnContext) : c.writerXid ∈ c.retireOrder := by
  rcases c.writerXid_cases with ⟨-, parent⟩ | ⟨p, member, top, -⟩
  · rw [parent]
    exact mem_append_right _ (mem_singleton_self _)
  · rw [top]
    exact mem_append_left _ (mem_append_left _ (mem_map_of_mem member))

theorem TxnContext.le_writerXid (sorted : context.savepoints.Pairwise fun a b => a.2 < b.2)
    {p : String × Nat} (member : p ∈ context.savepoints) : p.2 ≤ context.writerXid := by
  rcases context.writerXid_cases with ⟨empty, -⟩ | ⟨top, -, writer, outer, split⟩
  · simp [empty] at member
  · rw [split] at member sorted
    rw [writer]
    rcases mem_append.mp member with before | last
    · exact ((pairwise_append.mp sorted).2.2 p before top (mem_singleton_self top)).le
    · rw [mem_singleton.mp last]

theorem Consistent.write (consistent : Consistent m context j []) (real : context.writerXid ≠ xidNone)
    (issued : ¬ m.Unissued context.writerXid) :
    Consistent m context
      ⟨j.stamps ++ [context.writerXid], j.nesting.write j.stamps.length⟩ [] where
  sorted := consistent.sorted
  above := consistent.above
  aligned := by
    have bound : ∀ p ∈ context.savepoints.reverse, p.2 ≤ context.writerXid :=
      fun p member => TxnContext.le_writerXid consistent.sorted (mem_reverse.mp member)
    exact ((forall₂_and_left _ _).mpr ⟨bound, consistent.aligned⟩).imp fun p frame both => both.2.append both.1
  issued := by
    intro x member
    rcases mem_append.mp member with before | last
    · exact consistent.issued x before
    · rw [mem_singleton.mp last]
      exact ⟨real, issued⟩
  live := by
    intro i member
    rcases mem_append.mp member with before | last
    · obtain ⟨x, stamp, own⟩ := consistent.live i before
      exact ⟨x, getElem?_append_left (List.getElem?_eq_some_iff.mp stamp).1 ▸ stamp, own⟩
    · rw [mem_singleton.mp last]
      exact ⟨context.writerXid, by simp, context.writerXid_mem⟩
  dead := by
    intro i x stamp absent
    have old : i ∉ j.nesting.live := fun member => absent (mem_append_left _ member)
    have other : i ≠ j.stamps.length := fun same => absent (mem_append_right _ (mem_singleton.mpr same))
    by_cases before : i < j.stamps.length
    · rw [getElem?_append_left before] at stamp
      exact consistent.dead i x stamp old
    · have length := (List.getElem?_eq_some_iff.mp stamp).1
      simp only [length_append, length_singleton] at length
      omega

variable {xid : Nat}

theorem Consistent.savepoint
    (consistent : Consistent m context j []) (name : String) (below : ∀ x, ¬ m.Unissued x → x < xid)
    (owned : ∀ x ∈ context.retireOrder, ¬ m.Unissued x) (unissued : ∀ x, m'.Unissued x → m.Unissued x)
    (aborted : m'.aborted = m.aborted) :
    Consistent m' (context.pushSavepoint name xid)
      ⟨j.stamps, j.nesting.savepoint name j.stamps.length⟩ [] := by
  have older {p : String × Nat} (member : p ∈ context.savepoints) : p.2 < xid :=
    below p.2 (owned p.2 (mem_append_left _ (mem_append_left _ (mem_map_of_mem member))))
  have parent : context.xid < xid := below _ (owned _ (mem_append_right _ (mem_singleton_self _)))
  have kept : Consistent m' context j [] := consistent.mono unissued aborted.symm.subset (by simp)
  refine ⟨?_, ?_, ?_, kept.issued, ?_, kept.dead⟩
  · refine pairwise_append.mpr ⟨consistent.sorted, pairwise_singleton _ _, ?_⟩
    intro p member q last
    rw [mem_singleton.mp last]
    exact older member
  · intro p member
    rcases mem_append.mp member with before | last
    · exact consistent.above p before
    · rw [mem_singleton.mp last]
      exact parent
  · simp only [TxnContext.pushSavepoint, reverse_append, reverse_singleton, singleton_append, Nesting.savepoint]
    refine .cons ⟨rfl, le_refl _, fun i x stamp => ?_⟩ consistent.aligned
    exact iff_of_true (List.getElem?_eq_some_iff.mp stamp).1 (below x (consistent.issued x (mem_of_getElem? stamp)).2)
  · intro i member
    obtain ⟨x, stamp, own⟩ := consistent.live i member
    exact ⟨x, stamp, (context.pushSavepoint_retireOrder name xid).mem_iff.mpr (mem_cons_of_mem _ own)⟩

theorem forall₂_dropWhile {stamps : List Nat} (name : String) {savepoints frames : List (String × Nat)}
    (aligned : List.Forall₂ (Aligned stamps) savepoints frames) :
    List.Forall₂ (Aligned stamps) (savepoints.dropWhile (·.1 != name)) (frames.dropWhile (·.1 != name)) := by
  induction aligned with
  | nil => exact .nil
  | cons head tail ih =>
    simp only [dropWhile_cons, head.1]
    split_ifs
    · exact ih
    · exact .cons head tail

variable {name : String}

theorem TxnContext.split_unique {c : TxnContext} (found : c.fromFirst name ≠ [])
    (unique : c.savepoints.countP (·.1 == name) ≤ 1) :
    ∃ xid inner, c.fromFirst name = (name, xid) :: inner ∧ c.savepoints = c.below name ++ (name, xid) :: inner ∧
      c.savepoints.reverse.dropWhile (·.1 != name) = (name, xid) :: (c.below name).reverse := by
  obtain ⟨⟨first, xid⟩, inner, split⟩ := exists_cons_of_ne_nil found
  have whole : c.savepoints = c.below name ++ (first, xid) :: inner := by
    rw [← split]
    exact (takeWhile_append_dropWhile).symm
  have named : first = name := by
    have stopped := head_dropWhile_not (fun p : String × Nat => p.1 != name) found
    have head : (c.fromFirst name).head found = (first, xid) := by simp only [split, head_cons]
    change (((c.fromFirst name).head found).1 != name) = false at stopped
    rw [head] at stopped
    simpa using stopped
  subst named
  refine ⟨xid, inner, split, whole, ?_⟩
  have others : ∀ p ∈ inner.reverse, (p.1 != first) = true := by
    intro p member
    rw [whole, countP_append, countP_cons] at unique
    simp only [beq_self_eq_true, if_true] at unique
    have none : inner.countP (·.1 == first) = 0 := by omega
    have different := countP_eq_zero.mp none p (mem_reverse.mp member)
    simpa [bne] using different
  rw [whole, reverse_append, reverse_cons, append_assoc, dropWhile_append_of_pos others]
  simp

theorem Consistent.release {left : TxnContext} {released : Nat} (consistent : Consistent m context j [])
    (split : context.releaseSavepoint name = .ok (released, left))
    (unique : context.savepoints.countP (·.1 == name) ≤ 1) :
    Consistent m left ⟨j.stamps, j.nesting.release name⟩ [] := by
  have perm := TxnContext.releaseSavepoint_retireOrder split
  obtain ⟨found, rfl⟩ := TxnContext.releaseSavepoint_ok split
  obtain ⟨xid, inner, -, whole, recent⟩ := TxnContext.split_unique found unique
  have within : (context.below name).Sublist context.savepoints := takeWhile_sublist _
  have aligned := forall₂_dropWhile name consistent.aligned
  rw [recent] at aligned
  obtain ⟨⟨first, mark⟩, outer, -, rest, frames⟩ := forall₂_cons_left_iff.mp aligned
  have popped : j.nesting.release name = { j.nesting with frames := outer } := by
    simp only [Nesting.release, Nesting.fromRecent, frames]
  rw [popped]
  refine ⟨consistent.sorted.sublist within, fun p member => consistent.above p (within.subset member), rest,
    consistent.issued, fun i member => ?_, consistent.dead⟩
  obtain ⟨x, stamp, own⟩ := consistent.live i member
  exact ⟨x, stamp, perm.mem_iff.mpr own⟩

theorem Consistent.rollbackTo {left : TxnContext}
    {rollback : RollbackToSavepoint} (consistent : Consistent m context j [])
    (split : context.rollbackToSavepoint name = .ok (rollback, left))
    (unique : context.savepoints.countP (·.1 == name) ≤ 1)
    (unreleased : ∀ x ∈ j.stamps, x ∈ context.releasedSubXids → ∀ p ∈ context.savepoints, p.1 = name → x < p.2) :
    Consistent m left ⟨j.stamps, j.nesting.rollbackTo name⟩ rollback.abortedXids := by
  obtain ⟨found, aborted, rfl⟩ := TxnContext.rollbackToSavepoint_ok split
  obtain ⟨xid, inner, first, whole, recent⟩ := TxnContext.split_unique found unique
  have within : (context.below name).Sublist context.savepoints := takeWhile_sublist _
  have aligned := forall₂_dropWhile name consistent.aligned
  rw [recent] at aligned
  obtain ⟨⟨_, mark⟩, outer, ⟨-, -, marked⟩, rest, frames⟩ := forall₂_cons_left_iff.mp aligned
  have popped : j.nesting.rollbackTo name = { frames := outer, live := j.nesting.live.filter (· < mark) } := by
    simp only [Nesting.rollbackTo, Nesting.fromRecent, frames]
  have sorted := consistent.sorted
  rw [whole, pairwise_append, pairwise_cons] at sorted
  obtain ⟨-, ⟨inside, -⟩, outside⟩ := sorted
  have member : (name, xid) ∈ context.savepoints := by
    rw [whole]
    exact mem_append_right _ mem_cons_self
  have own {x : Nat} (ids : x ∈ context.retireOrder) :
      x ∈ (context.below name).map Prod.snd ∨ x ∈ rollback.abortedXids ∨
        x ∈ context.releasedSubXids ∨ x = context.xid := by
    simp only [TxnContext.retireOrder, ← context.below_append_fromFirst name, mem_append, mem_singleton] at ids
    rw [aborted]
    tauto
  rw [popped]
  refine ⟨consistent.sorted.sublist within, fun p member => consistent.above p (within.subset member), rest,
    consistent.issued, fun i live => ?_, fun i x stamp absent => ?_⟩
  · obtain ⟨kept, before⟩ := mem_filter.mp live
    obtain ⟨x, stamp, ids⟩ := consistent.live i kept
    have early : x < xid := (marked i x stamp).mp (of_decide_eq_true before)
    refine ⟨x, stamp, ?_⟩
    simp only [TxnContext.retireOrder, mem_append, mem_singleton]
    rcases own ids with below | dying | released | parent
    · exact .inl (.inl below)
    · rw [aborted, first, map_cons, mem_cons] at dying
      rcases dying with same | later
      · omega
      · obtain ⟨p, nested, rfl⟩ := mem_map.mp later
        exact absurd early (inside p nested).le.not_gt
    · exact .inl (.inr released)
    · exact .inr parent
  · by_cases kept : i ∈ j.nesting.live
    · obtain ⟨y, stamp', ids⟩ := consistent.live i kept
      cases stamp.symm.trans stamp'
      have late : ¬ x < xid := by
        intro early
        exact absent (mem_filter.mpr ⟨kept, decide_eq_true ((marked i x stamp).mpr early)⟩)
      rcases own ids with below | dying | released | parent
      · obtain ⟨p, nested, rfl⟩ := mem_map.mp below
        exact absurd (outside p nested (name, xid) mem_cons_self) late
      · exact .inr dying
      · exact absurd (unreleased x (mem_of_getElem? stamp) released (name, xid) member rfl) late
      · rw [parent] at late
        exact absurd (consistent.above (name, xid) member) late
    · rcases consistent.dead i x stamp kept with before | none
      · exact .inl before
      · exact absurd none not_mem_nil

def Session.Consistent (m : SnapshotManager) (j : Journal) : Session → Prop
  | .running context => Transaction.Consistent m context j []
  | .retiring .resume context pending => Transaction.Consistent m context j pending
  | .retiring .commit context _ => Transaction.Consistent m context j []
  | _ => True

theorem Session.Consistent.mono {σ : Session}
    (consistent : σ.Consistent m j) (unissued : ∀ x, m'.Unissued x → m.Unissued x)
    (aborted : m.aborted ⊆ m'.aborted) : σ.Consistent m' j := by
  rcases σ with _ | _ | _ | context | ⟨goal, context, pending⟩
  case running => exact Transaction.Consistent.mono consistent unissued aborted (by simp)
  case retiring =>
    cases goal
    · exact Transaction.Consistent.mono consistent unissued aborted (by simp)
    · trivial
    · exact Transaction.Consistent.mono consistent unissued aborted fun x dying => .inr dying
  all_goals trivial

structure Committed.Kept (done : Committed) (m : SnapshotManager) : Prop where
  live : ∀ i ∈ done.journal.nesting.live, ∀ x, done.journal.stamps[i]? = some x → x ∈ done.context.retireOrder
  dead : ∀ i x, done.journal.stamps[i]? = some x → i ∉ done.journal.nesting.live → x ≠ xidNone ∧ x ∈ m.aborted

/-- The snapshot was taken for nobody, or by a transaction that began after all of `ids`. -/
def BegunAfter (own : Option Nat) (ids : List Nat) : Prop := ∀ x ∈ own, ∀ y ∈ ids, y < x

structure Nested (s : System) : Prop where
  owns : Owns s
  sessions : ∀ conn, (s.session conn).Consistent s.manager (s.journal conn)
  kept : ∀ done ∈ s.committed, done.Kept s.manager
  counted : ∀ done ∈ s.committed, done.capturesBefore ≤ s.captures.length
  captured : ∀ done ∈ s.committed, ∀ k c, done.capturesBefore ≤ k → s.captures[k]? = some c →
    BegunAfter c.1 done.context.retireOrder → ∀ x ∈ done.context.retireOrder, ¬ c.2.Excludes x

theorem Nested.init : Nested .init where
  owns := .init
  sessions := by simp [System.init, System.session, Table.get?, Session.Consistent]
  kept := by simp [System.init]
  counted := by simp [System.init]
  captured := by simp [System.init]

theorem Committed.Kept.mono {done : Committed} (kept : done.Kept m)
    (aborted : m.aborted ⊆ m'.aborted) : done.Kept m' where
  live := kept.live
  dead := fun i x stamp absent => ⟨(kept.dead i x stamp absent).1, aborted (kept.dead i x stamp absent).2⟩

variable {s : System} {conn : Nat}

theorem Nested.move (nested : Nested s) {σ : Session} (owns : Owns (s.move conn σ j m))
    (unissued : ∀ x, m.Unissued x → s.manager.Unissued x) (aborted : s.manager.aborted ⊆ m.aborted)
    (consistent : σ.Consistent m j) : Nested (s.move conn σ j m) where
  owns := owns
  sessions := by
    intro other
    rw [session_move, journal_move]
    split_ifs
    · exact consistent
    · exact (nested.sessions other).mono unissued aborted
  kept := fun done member => (nested.kept done member).mono aborted
  counted := nested.counted
  captured := nested.captured

theorem Nested.setManager (nested : Nested s)
    (owns : Owns { s with manager := m }) (unissued : ∀ x, m.Unissued x → s.manager.Unissued x)
    (aborted : m.aborted = s.manager.aborted) : Nested { s with manager := m } where
  owns := owns
  sessions := fun conn => (nested.sessions conn).mono unissued aborted.symm.subset
  kept := fun done member => (nested.kept done member).mono aborted.symm.subset
  counted := nested.counted
  captured := nested.captured

theorem Nested.capture (nested : Nested s) {own : Option Nat} {snapshot : Snapshot}
    (seen : ∀ done ∈ s.committed, BegunAfter own done.context.retireOrder →
      ∀ x ∈ done.context.retireOrder, ¬ snapshot.Excludes x) :
    Nested { s with captures := s.captures ++ [(own, snapshot)] } where
  owns := nested.owns.setCaptures _
  sessions := nested.sessions
  kept := nested.kept
  counted := by
    intro done member
    rw [length_append]
    exact (nested.counted done member).trans (Nat.le_add_right _ _)
  captured := by
    intro done member k c later taken
    by_cases before : k < s.captures.length
    · rw [getElem?_append_left before] at taken
      exact nested.captured done member k c later taken
    · rw [getElem?_append_right (not_lt.mp before)] at taken
      rw [mem_singleton.mp (mem_of_getElem? taken)]
      exact seen done member

/-- At RELEASE and ROLLBACK TO the name is open only once, and at ROLLBACK TO no write is stamped
    with the id of a savepoint opened inside it and released since. -/
def System.PlainNesting (s : System) : Event → Prop
  | .release conn name => ∀ context ∈ (s.session conn).context,
    context.savepoints.countP (·.1 == name) ≤ 1
  | .rollbackTo conn name => ∀ context ∈ (s.session conn).context,
    context.savepoints.countP (·.1 == name) ≤ 1 ∧ ∀ x ∈ (s.journal conn).stamps, x ∈ context.releasedSubXids →
        ∀ p ∈ context.savepoints, p.1 = name → x < p.2
  | _ => True

instance (s : System) : (e : Event) → Decidable (s.PlainNesting e)
  | .release _ _ | .rollbackTo _ _ => inferInstanceAs (Decidable (∀ _ ∈ _, _))
  | .begin _ _ | .register _ | .takeSnapshot _ | .savepoint _ _ | .write _ | .commit _ | .refuse _
  | .rollback _ | .retire _ | .capture | .autocommit | .observe _ => .isTrue trivial

def System.SavepointsNest (s : System) (e : Event) : Prop := s.CounterBelowMax e ∧ s.PlainNesting e

instance (s : System) (e : Event) : Decidable (s.SavepointsNest e) :=
  inferInstanceAs (Decidable (_ ∧ _))

theorem Owns.aborted_retire (own : Owns s) {goal : Goal}
    {pending : List Nat} (found : s.session conn = .retiring goal context (xid :: pending)) :
    s.manager.aborted ⊆ (retireOne goal s.manager xid).aborted := by
  rw [retireOne_aborted]
  split_ifs with commits
  · subst commits
    have owned := own.pending_owned found
    have clean := own.clean conn xid
    rw [found] at owned clean
    exact (Finset.erase_eq_of_notMem (clean owned)).symm.subset
  · exact Finset.subset_insert _ _

theorem Nested.takeSnapshot (nested : Nested s) {isolation : IsolationLevel}
    (found : s.session conn = .registered xid isolation) :
    Nested { s.move conn (.running ⟨xid, isolation, (s.manager.snapshot xid).1, [], []⟩) .empty
        (s.manager.snapshot xid).2 with
      captures := s.captures ++ [(some xid, (s.manager.snapshot xid).1)] } := by
  have owns := nested.owns
  have framed := snapshot_framed owns.wellFormed owns.known xid
  have aborted : (s.manager.snapshot xid).2.aborted = s.manager.aborted := by
    simp only [snapshot]
    split_ifs <;> rfl
  have moved : Nested (s.move conn (.running ⟨xid, isolation, (s.manager.snapshot xid).1, [], []⟩) .empty
      (s.manager.snapshot xid).2) := by
    refine nested.move ?_ (framed []).unissued aborted.symm.subset (.begin _ _ _ _)
    refine owns.regroup _ framed ?_ ?_ ?_ trivial
    all_goals simp [found, Session.owned, Session.held, Session.surviving, TxnContext.retireOrder]
  refine moved.capture fun done member after x ids => ?_
  refine (owns.settled done member x ids).not_excluded (after xid rfl x ids).le ?_
  exact Finset.union_subset_union_left (Finset.filter_subset _ _)

theorem Nested.finish (nested : Nested s) {goal : Goal} (found : s.session conn = .retiring goal context [xid]) :
    Nested (s.finish conn context (retireOne goal s.manager xid) goal) := by
  have owns := nested.owns.finish found
  have quiet := retireOne_quiet goal s.manager xid
  have aborted := nested.owns.aborted_retire found
  have consistent := nested.sessions conn
  rw [found] at consistent
  cases goal with
  | rollback => exact nested.move owns (fun x => quiet.unissued) aborted trivial
  | resume =>
    refine nested.move owns (fun x => quiet.unissued) aborted
      (Transaction.Consistent.mono consistent (fun x => quiet.unissued) aborted fun x dying => .inl ?_)
    rw [retireOne_aborted, mem_singleton.mp dying]
    exact Finset.mem_insert_self _ _
  | commit =>
    refine ⟨owns, fun other => ?_, fun done member => ?_, fun done member => ?_, fun done member => ?_⟩
    · let left := s.move conn .idle .empty (retireOne .commit s.manager xid)
      change (left.session other).Consistent left.manager (left.journal other)
      rw [session_move, journal_move]
      split_ifs
      · trivial
      · exact (nested.sessions other).mono (fun x => quiet.unissued) aborted
    all_goals rcases mem_append.mp member with before | new
    · exact (nested.kept done before).mono aborted
    · rw [mem_singleton.mp new]
      refine ⟨fun i live x stamp => ?_, fun i x stamp absent => ?_⟩
      · obtain ⟨y, stamp', ids⟩ := consistent.live i live
        cases stamp.symm.trans stamp'
        exact ids
      · refine ⟨(consistent.issued x (mem_of_getElem? stamp)).1, aborted ?_⟩
        exact (consistent.dead i x stamp absent).resolve_right not_mem_nil
    · exact nested.counted done before
    · rw [mem_singleton.mp new]
      exact le_refl _
    · exact nested.captured done before
    · rw [mem_singleton.mp new]
      intro k c later taken
      exact absurd (List.getElem?_eq_some_iff.mp taken).1 (not_lt.mpr later)

theorem Nested.step {t : System} {e : Event} (nested : Nested s) (admitted : s.SavepointsNest e)
    (effect : System.Effect s e t) : Nested t := by
  have owns := nested.owns.step admitted.1 effect
  have issues (bound : s.manager.nextXid + 1 < maxXid) := begin_issues nested.owns.wellFormed bound
  cases effect with
  | begin free =>
    exact nested.move owns (fun x later => ((issues admitted.1).rest x later).1) (Finset.Subset.refl _) trivial
  | register found =>
    refine nested.move owns (fun x later => ?_) ?_ trivial
    · split_ifs at later
      · exact (beginSerializable_quiet _ _).unissued later
      · exact later
    · split_ifs
      · unfold beginSerializable
        split <;> exact Finset.Subset.refl _
      · exact Finset.Subset.refl _
  | takeSnapshot found => exact nested.takeSnapshot found
  | @savepoint conn name context found =>
    have consistent := nested.sessions conn
    have owned := nested.owns.issued conn
    rw [found] at consistent owned
    refine nested.move owns (fun x later => ((issues admitted.1).rest x later).1) (Finset.Subset.refl _) ?_
    refine consistent.savepoint name (fun x issued => not_le.mp fun above => issued (.inl above))
      (fun x ids => (owned x ids).2) (fun x later => ((issues admitted.1).rest x later).1) rfl
  | @write conn context found =>
    have consistent := nested.sessions conn
    have owned := nested.owns.issued conn
    rw [found] at consistent owned
    have writer := owned _ context.writerXid_mem
    exact nested.move owns (fun _ later => later) (Finset.Subset.refl _) (consistent.write writer.1 writer.2)
  | @release conn released name context left found split =>
    have consistent := nested.sessions conn
    have unique := admitted.2 context
    rw [found] at consistent unique
    exact nested.move owns (fun _ later => later) (Finset.Subset.refl _) (consistent.release split (unique rfl))
  | @rollbackTo conn name context left rollback found split =>
    have consistent := nested.sessions conn
    have plain := admitted.2 context
    rw [found] at consistent plain
    exact nested.move owns (fun _ later => later) (Finset.Subset.refl _)
      (consistent.rollbackTo split (plain rfl).1 (plain rfl).2)
  | @retireAll e conn context goal whole found =>
    have consistent := nested.sessions conn
    rw [found] at consistent
    refine nested.move owns (fun _ later => later) (Finset.Subset.refl _) ?_
    cases goal with
    | resume => exact absurd rfl whole
    | commit => exact consistent
    | rollback => trivial
  | @retire conn xid next goal context pending found =>
    have consistent := nested.sessions conn
    have quiet := retireOne_quiet goal s.manager xid
    have aborted := nested.owns.aborted_retire found
    rw [found] at consistent
    refine nested.move owns (fun x => quiet.unissued) aborted ?_
    cases goal with
    | rollback => trivial
    | commit => exact Session.Consistent.mono consistent (fun x => quiet.unissued) aborted
    | resume =>
      refine Transaction.Consistent.mono consistent (fun x => quiet.unissued) aborted fun x dying => ?_
      rcases mem_cons.mp dying with rfl | later
      · left
        rw [retireOne_aborted]
        exact Finset.mem_insert_self _ _
      · exact .inr later
  | finish found => exact nested.finish found
  | capture =>
    refine nested.capture fun done member _ x ids => ?_
    have settled := nested.owns.settled done member x ids
    refine settled.not_excluded ?_ (Finset.Subset.refl _)
    have below : x < s.manager.nextXid := not_le.mp fun above => settled.issued (.inl above)
    simp only [freshReadSnapshot]
    omega
  | autocommit =>
    have issues := allocateCommittedXid_issues nested.owns.wellFormed admitted.1
    exact nested.setManager owns (fun x later => (issues.rest x later).1) (allocateCommittedXid_sets _).2
  | observe =>
    refine nested.setManager owns (fun x => observeCommittedXid_unissued) ?_
    unfold observeCommittedXid
    split_ifs <;> rfl
  | unchanged => exact nested

theorem TxnContext.mem_ownXids {c : TxnContext} {x : Nat} : x ∈ c.ownXids ↔ x ∈ c.retireOrder := by
  simp only [ownXids, retireOrder, Finset.mem_insert, Finset.mem_union, mem_toFinset, mem_append, mem_singleton]
  tauto

theorem savepoint_semantics {events : List Event} {s : System}
    (run : Run (Guarded (Steps System.step) SavepointsNest) .init events s) :
    (∀ conn context, s.session conn = .running context → ∀ i x, (s.journal conn).stamps[i]? = some x →
      ∀ snapshot, if i ∈ (s.journal conn).nesting.live
        then WriteShown ⟨snapshot, s.manager.aborted, context.ownXids⟩ x
        else WriteHidden ⟨snapshot, s.manager.aborted, context.ownXids⟩ x) ∧
    ∀ done ∈ s.committed, ∀ i x, done.journal.stamps[i]? = some x → ∀ ownXids, if i ∈ done.journal.nesting.live
        then ∀ k c, done.capturesBefore ≤ k → s.captures[k]? = some c →
          BegunAfter c.1 done.context.retireOrder → WriteShown ⟨c.2, s.manager.aborted, ownXids⟩ x
        else ∀ snapshot, WriteHidden ⟨snapshot, s.manager.aborted, ownXids⟩ x := by
  have nested : Nested s := run.invariant
    (fun _ _ _ before taken => before.step taken.1 (step_effect taken.2)) Nested.init
  have owns := nested.owns
  constructor
  · intro conn context found i x stamp snapshot
    have consistent := nested.sessions conn
    have clean := owns.clean conn
    rw [found] at consistent clean
    have real := (consistent.issued x (mem_of_getElem? stamp)).1
    split_ifs with live
    · obtain ⟨y, stamp', ids⟩ := consistent.live i live
      cases stamp.symm.trans stamp'
      exact .of_own real (clean x ids) (TxnContext.mem_ownXids.mpr ids)
    · exact .of_aborted real ((consistent.dead i x stamp live).resolve_right not_mem_nil)
  · intro done member i x stamp ownXids
    have kept := nested.kept done member
    split_ifs with live
    · intro k c later taken after
      have ids := kept.live i live x stamp
      have settled := owns.settled done member x ids
      exact .of_seen settled.real settled.clean (nested.captured done member k c later taken after x ids)
    · intro snapshot
      obtain ⟨real, aborted⟩ := kept.dead i x stamp live
      exact .of_aborted real aborted

def rolledBackThenCommitted : List Event :=
  [.begin 0 .snapshotIsolation, .register 0, .takeSnapshot 0, .write 0, .savepoint 0 "a", .write 0,
    .rollbackTo 0 "a", .retire 0, .write 0, .commit 0, .retire 0, .capture]

theorem savepoint_semantics_rolledBack :
    ∃ s, Run (Guarded (Steps System.step) SavepointsNest) .init rolledBackThenCommitted s ∧
      ∃ done ∈ s.committed, done.journal.stamps = [1, 2, 1] ∧ done.journal.nesting.live = [0, 2] ∧
        ∃ c ∈ s.captures, c.1 = none ∧ WriteShown ⟨c.2, s.manager.aborted, ∅⟩ 1 ∧
          WriteHidden ⟨c.2, s.manager.aborted, ∅⟩ 2 := by
  obtain ⟨s, run, final⟩ := execute_reaches System.step SavepointsNest .init rolledBackThenCommitted
    (fun s => decide (∃ done ∈ s.committed, done.journal = ⟨[1, 2, 1], ⟨[], [0, 2]⟩⟩ ∧
      done.capturesBefore = 1 ∧ (s.captures[1]?.map Prod.fst) = some none)) (by decide)
  obtain ⟨done, member, journal, before, last⟩ := of_decide_eq_true final
  obtain ⟨c, taken, none⟩ := Option.map_eq_some_iff.mp last
  have semantics := (savepoint_semantics run).2 done member
  rw [journal] at semantics
  refine ⟨s, run, done, member, by rw [journal], by rw [journal], c, mem_of_getElem? taken, none, ?_, ?_⟩
  · exact semantics 0 1 rfl ∅ 1 c before.le taken (by rw [none]; simp [BegunAfter])
  · exact semantics 1 2 rfl ∅ c.2

/-- Savepoint `b` inside `a` is released before the transaction rolls back to `a`. -/
def releasedInside : List Event :=
  [.begin 0 .snapshotIsolation, .register 0, .takeSnapshot 0, .savepoint 0 "a", .savepoint 0 "b", .write 0,
    .release 0 "b", .rollbackTo 0 "a", .retire 0, .commit 0, .retire 0, .retire 0, .capture]

theorem released_write_survives_rollback :
    ∃ s, Run (Guarded (Steps System.step) CounterBelowMax) .init releasedInside s ∧
      ∃ done ∈ s.committed, done.journal.stamps = [3] ∧ done.journal.nesting.live = [] ∧
        ∃ c ∈ s.captures, c.1 = none ∧ visibilityCheck ⟨c.2, s.manager.aborted, ∅⟩ 3 xidNone = true := by
  obtain ⟨s, run, final⟩ := execute_reaches System.step CounterBelowMax .init releasedInside
    (fun s => decide (∃ done ∈ s.committed, done.journal.stamps = [3] ∧ done.journal.nesting.live = [] ∧
      ∃ c ∈ s.captures, c.1 = none ∧ visibilityCheck ⟨c.2, s.manager.aborted, ∅⟩ 3 xidNone = true))
    (by decide)
  exact ⟨s, run, of_decide_eq_true final⟩

end RedDB.Transaction
