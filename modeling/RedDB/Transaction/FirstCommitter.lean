import RedDB.Transaction.RowInvariant

namespace RedDB.Transaction

open List Library SnapshotManager Transaction.System WriteSet

namespace RowSystem

section

variable {s : RowSystem} {conn : Nat} {context : TxnContext} {a : RowCommit}

theorem Inv.conflicts (inv : Inv s) (found : s.core.session conn = .running context) (member : a ∈ s.commits)
    (started : s.StartedBefore context a) {x : Nat} (ids : x ∈ a.done.context.retireOrder) :
    xidConflictsWithSnapshot s.core.manager context.snapshot context.ownXids x = true := by
  have finished := inv.finished a member
  have settled {y : Nat} := inv.atomic.owns.settled a.done finished.committed y
  have owned : (s.core.session conn).owned = context.retireOrder := by rw [found]; rfl
  have foreign : some context.xid ≠ some a.done.context.xid := by
    intro same
    have parent : context.xid ∈ context.retireOrder := mem_append_right _ (mem_singleton_self _)
    refine (settled (mem_append_right _ (mem_singleton_self _))).free conn ?_
    rw [owned, ← Option.some.inj same]
    exact parent
  have excluded := finished.excluded _ started foreign x ids
  refine decide_eq_true ⟨excluded.1, fun own => ?_, (settled ids).clean, (settled ids).inactive, excluded.2⟩
  exact (settled ids).free conn (owned ▸ TxnContext.mem_ownXids.mp own)

variable {ok : Unit}

section

variable (inv : Inv s) (found : s.core.session conn = .running context)
include inv found

theorem Inv.check_clear (member : a ∈ s.commits) (started : s.StartedBefore context a)
    (passed : checkTableRowWriteConflicts s.core.manager context.snapshot context.ownXids s.store
      (s.writes conn) = .ok ok) {d : PendingTombstone} (deleted : d ∈ a.writes.tombstones)
    {p : PendingTombstone} (written : p ∈ (s.writes conn).stamps) :
    ¬ (p.collection = d.collection ∧ p.id = d.id) := by
  rintro ⟨sameCollection, sameId⟩
  have tracked := inv.tracked conn
  have finished := inv.finished a member
  obtain ⟨v, stored, collection, id, -⟩ := tracked.versions context (by rw [found]; rfl) p written
  obtain ⟨w, stored', collection', id', -, -, stamp⟩ := finished.deleted d deleted
  have same : v = w := inv.wellFormed.eq_of_id stored stored'
    (collection'.trans (sameCollection.symm.trans collection.symm)) (id'.trans (sameId.symm.trans id.symm))
  subst same
  obtain ⟨_, -, checked⟩ := checkTableRowWriteConflicts_ok passed written
  have get : s.store.get? p.collection p.id = some v := by
    rw [← collection, ← id]
    exact inv.wellFormed.get?_of_mem stored
  have overwritten : v.xmax ≠ p.xid := by
    intro own
    have settled := inv.atomic.owns.settled a.done finished.committed _ stamp
    exact settled.detached.2 conn (own ▸ tracked.stamps p written)
  have clean := (checkWrite_ok checked get).1 overwritten
  rw [inv.conflicts found member started stamp] at clean
  cases clean

theorem Inv.check_apart (member : a ∈ s.commits)
    (started : s.StartedBefore context a) (fixed : context.isolation ≠ .readCommitted)
    (passed : checkTableRowWriteConflicts s.core.manager context.snapshot context.ownXids s.store
      (s.writes conn) = .ok ok) : ¬ (s.writes conn).Meets a.writes := by
  rintro ⟨row, mine, theirs⟩
  have tracked := inv.tracked conn
  have finished := inv.finished a member
  have settled {x : Nat} := inv.atomic.owns.settled a.done finished.committed x
  have conflict {x : Nat} := inv.conflicts found member started (x := x)
  have live : (s.core.session conn).surviving = context.retireOrder := by rw [found]; rfl
  obtain ⟨p, written, rfl⟩ := mem_map.mp mine
  obtain ⟨q, others, same⟩ := mem_map.mp theirs
  obtain ⟨sameCollection, sameRow⟩ := Prod.mk.inj same
  obtain ⟨v, stored, collection, id, logical, origin⟩ := tracked.versions context (by rw [found]; rfl) p written
  obtain ⟨excludedIds, excluded, checked⟩ := checkTableRowWriteConflicts_ok passed written
  have get : s.store.get? p.collection p.id = some v := by
    rw [← collection, ← id]
    exact inv.wellFormed.get?_of_mem stored
  -- A version of the row that the check leaves out is the one written or one the transaction created.
  have seen {w : RowVersion} (stored' : w ∈ s.store) (here : w.collection = p.collection)
      (row : w.logicalId = p.logicalId) : w = v ∨ w.xmin ∈ context.retireOrder ∨
        xidConflictsWithSnapshot s.core.manager context.snapshot context.ownXids w.xmin = false ∧
          xidConflictsWithSnapshot s.core.manager context.snapshot context.ownXids w.xmax = false := by
    by_cases left : w.id ∈ excludedIds
    · rcases excluded w.id left with old | ⟨u, updated, there, new⟩
      · exact .inl (inv.wellFormed.eq_of_id stored' stored (collection.trans here.symm) (id.trans old.symm))
      · refine .inr (.inl ?_)
        rw [inv.created updated stored' (here.trans there.symm) new.symm, ← live]
        exact tracked.stamps _ (mem_stamps_of_update updated)
    · exact .inr (.inr ((checkWrite_ok checked get).2 w stored' here (row.trans logical.symm) left))
  rcases mem_append.mp others with updated | deleted
  · obtain ⟨u, listed, rfl⟩ := mem_map.mp updated
    obtain ⟨w, stored', collection', -, row', created⟩ := finished.installed u listed
    have ids : w.xmin ∈ a.done.context.retireOrder := created ▸ finished.stamps _ (mem_stamps_of_update listed)
    rcases seen stored' (collection'.trans sameCollection) (row'.trans sameRow) with rfl | own | clean
    · rcases origin with ⟨own, -⟩ | ⟨-, visible⟩
      · exact (settled ids).detached.2 conn (live ▸ own)
      · have hidden := of_decide_eq_true (conflict ids)
        exact visible fixed ⟨hidden.1, hidden.2.2.2.2⟩
    · exact (settled ids).detached.2 conn (live ▸ own)
    · rw [conflict ids] at clean
      cases clean.1
  · obtain ⟨w, stored', collection', id', row', detached, stamp⟩ := finished.deleted q deleted
    rcases seen stored' (collection'.trans sameCollection) (row'.trans sameRow) with rfl | own | clean
    · exact inv.check_clear found member started passed deleted written ⟨sameCollection.symm, id.symm.trans id'⟩
    · exact detached.2 conn (live ▸ own)
    · rw [conflict stamp] at clean
      cases clean.2

theorem Inv.enter (separated : s.Separated (.check conn))
    (passed : checkTableRowWriteConflicts s.core.manager context.snapshot context.ownXids s.store
      (s.writes conn) = .ok ok) : Inv { s with checked := insert conn s.checked } := by
  have txn : (s.core.session conn).txn = some context := by rw [found]; rfl
  have enters {other : Nat} (member : other ∈ committing { s with checked := insert conn s.checked }) :
      other = conn ∨ other ∈ s.committing := by
    rw [committing, Finset.insert_union, Finset.mem_insert] at member
    exact member
  refine { inv with
    checked := fun other member => ?_, apart := fun first member second member' different => ?_
    clear := fun a member d deleted other member' p written same => ?_
    passed := fun a member other member' left known level meets started => ?_ }
  · rcases Finset.mem_insert.mp member with rfl | before
    · exact ⟨context, found⟩
    · exact inv.checked other before
  · rcases enters member with rfl | before
    · exact separated second ((enters member').resolve_left different.symm) different.symm
    · rcases enters member' with rfl | before'
      · exact fun meets => separated first before different meets.symm
      · exact inv.apart first before second before' different
  · rcases enters member' with rfl | before
    · have started := inv.overlap a member d deleted other p written same.1 same.2 context txn
      exact inv.check_clear found member started passed deleted written same
    · exact inv.clear a member d deleted other before p written same
  · rcases enters member' with rfl | before
    · rw [txn] at known
      cases known
      exact inv.check_apart found member started (by simp [level]) passed meets
    · exact inv.passed a member other before left known level meets started

end

theorem Inv.check_step (inv : Inv s) {t : RowSystem} (separated : s.Separated (.check conn))
    (taken : s.step (.check conn) = some t) : Inv t := by
  simp only [step] at taken
  split at taken
  · rename_i context found
    split_ifs at taken with unchecked
    split at taken
    · rename_i passed
      cases taken
      exact inv.enter found separated passed
    · exact inv.abandon_step (.inr rfl) taken
  · cases taken

end

section

variable {s : RowSystem} {conn : Nat} {context : TxnContext}

theorem mem_committing_checked (member : conn ∈ s.checked) : conn ∈ s.committing := Finset.mem_union_left _ member

theorem Inv.restored_untouched (inv : Inv s) (checked : conn ∈ s.checked) (a : RowCommit) (member : a ∈ s.commits)
    (d : PendingTombstone) (deleted : d ∈ a.writes.tombstones) :
    ¬ ∃ p ∈ (s.writes conn).stamps, p.collection = d.collection ∧ p.id = d.id := by
  rintro ⟨p, written, same⟩
  exact inv.clear a member d deleted conn (mem_committing_checked checked) p written same

theorem restore_frame (s : RowSystem) (conn : Nat) (mine : Nat → Prop) : RowStore.Frame mine
    (fun collection id => ∃ p ∈ (s.writes conn).stamps, p.collection = collection ∧ p.id = id) s.store
    (s.store.restorePendingWriteStamps (s.writes conn)) :=
  RowStore.restore_frame fun p member => ⟨p, member, rfl, rfl⟩

section

variable (inv : Inv s) (checked : conn ∈ s.checked) (free : s.publication = none)
include inv checked free

theorem Inv.publish_failed (failed : Finset Nat) :
    Inv { s with store := s.store.restorePendingWriteStamps (s.writes conn), failed } := by
  have carries : s.core.Carries s.core := ⟨fun _ => id, prefix_refl _, List.Subset.refl _⟩
  refine inv.frame conn _ inv.atomic (inv.wellFormed.restore _) carries rfl (fun _ _ => ⟨rfl, rfl⟩)
    (fun _ member => ⟨member, rfl, rfl⟩) (s.restore_frame conn _) (inv.restored_untouched checked) ?_
    (fun a member d deleted => inv.overlap a member d deleted conn) inv.checked inv.published fun other held => ?_
  · exact (inv.tracked conn).frame carries rfl (List.Subset.refl _) (s.restore_frame conn fun _ => False)
      fun _ none => none.elim
  · rw [free] at held
    cases held

theorem Inv.publish_succeeded {core : System} (stepped : s.core.step (.commit conn) = some core) :
    Inv { s with
      core, store := s.store.restorePendingWriteStamps (s.writes conn), checked := s.checked.erase conn
      publication := some conn } := by
  obtain ⟨atomic, carries⟩ := inv.core_step (e := .commit conn) ⟨trivial, trivial⟩ stepped
  cases found : s.core.session conn <;> simp only [System.step, found, reduceCtorEq] at stepped
  rename_i context
  cases stepped
  let core := s.core.move conn (.retiring .commit context context.retireOrder) (s.core.journal conn) s.core.manager
  have here : core.session conn = .retiring .commit context context.retireOrder :=
    (session_move _ _ _ _ _ _).trans (if_pos rfl)
  have elsewhere {other : Nat} (different : other ≠ conn) : core.session other = s.core.session other :=
    (session_move _ _ _ _ _ _).trans (if_neg different)
  have txn (other : Nat) : (core.session other).txn = (s.core.session other).txn := by
    by_cases same : other = conn
    · rw [same, here, found]
      rfl
    · rw [elsewhere same]
  have surviving : (core.session conn).surviving = (s.core.session conn).surviving := by
    rw [here, found]
    rfl
  have tracked := inv.tracked conn
  refine inv.frame conn _ atomic (inv.wellFormed.restore _) carries rfl
    (fun other different => ⟨elsewhere different, rfl⟩) (fun other member => ⟨?_, txn other, rfl⟩)
    (s.restore_frame conn _)
    (inv.restored_untouched checked) ?_ ?_ (fun other member => ?_) (fun other left pending retiring => ?_)
    fun other held => ?_
  · rcases Finset.mem_union.mp member with still | held
    · exact mem_committing_checked (Finset.mem_of_mem_erase still)
    · rw [← Option.some.inj (Option.mem_toFinset.mp held)]
      exact mem_committing_checked checked
  · exact tracked.frame carries (txn conn) (surviving ▸ List.Subset.refl _)
      (s.restore_frame conn fun _ => False) fun _ none => none.elim
  · intro a member d deleted p written collection id left known
    rw [txn] at known
    exact inv.overlap a member d deleted conn p written collection id left known
  · rw [elsewhere (Finset.ne_of_mem_erase member)]
    exact inv.checked other (Finset.mem_of_mem_erase member)
  · by_cases same : other = conn
    · rw [same]
    · rw [elsewhere same] at retiring
      rw [inv.published other left pending retiring] at free
      cases free
  · cases held
    refine ⟨⟨context, _, here⟩, fun d deleted => ?_⟩
    have written : d ∈ (s.writes conn).stamps := mem_append_right _ deleted
    obtain ⟨v, stored, collection, id, -⟩ := tracked.versions context (by rw [found]; rfl) d written
    obtain ⟨w, later, same, stamp⟩ := RowStore.restore_stamped stored tracked.stamps (.inr ⟨d, written, collection, id⟩)
    refine ⟨w, later, same.collection.trans collection, same.id.trans id, ?_⟩
    rw [surviving]
    exact stamp

end

theorem Inv.publish_step (inv : Inv s) {walOk : Bool} {t : RowSystem}
    (taken : s.step (.publish conn walOk) = some t) : Inv t := by
  simp only [step] at taken
  split_ifs at taken with ready flushed
  · obtain ⟨core, stepped, rfl⟩ := Option.map_eq_some_iff.mp taken
    exact inv.publish_succeeded ready.1 ready.2.2 stepped
  · cases taken
    exact inv.publish_failed ready.1 ready.2.2 _

end

section

variable {s : RowSystem} {conn xid : Nat} {context : TxnContext}

variable {m : SnapshotManager} {core : System}

theorem Inv.move_same (inv : Inv s) (unchecked : conn ∉ s.checked) {σ : Session} {j : Journal}
    (atomic : Atomic (s.core.move conn σ j m)) (carries : s.core.Carries (s.core.move conn σ j m))
    (before : ∀ left rest, s.core.session conn ≠ .retiring .commit left rest)
    (after : ∀ left rest, σ ≠ .retiring .commit left rest) (txn : σ.txn = (s.core.session conn).txn)
    (surviving : σ.surviving = (s.core.session conn).surviving) :
    Inv { s with core := s.core.move conn σ j m } := by
  have here : (s.core.move conn σ j m).session conn = σ := (session_move _ _ _ _ _ _).trans (if_pos rfl)
  refine inv.move atomic carries ⟨unchecked, before, ?_, ?_, fun left known => .inr ⟨left, ?_, rfl, rfl⟩⟩
  · rwa [here]
  · refine (inv.tracked conn).carry carries ?_ ?_
    · rw [here, txn]
    · rw [here, surviving]
      exact List.Subset.refl _
  · rwa [here, txn] at known

theorem Inv.move_idle (inv : Inv s) (found : s.core.session conn = .retiring .rollback context [xid])
    (atomic : Atomic (s.core.move conn .idle .empty m)) (carries : s.core.Carries (s.core.move conn .idle .empty m)) :
    Inv { s with core := s.core.move conn .idle .empty m } := by
  have here : (s.core.move conn .idle .empty m).session conn = .idle := (session_move _ _ _ _ _ _).trans (if_pos rfl)
  have quiet : s.writes conn = .empty := by
    refine eq_empty fun p member => ?_
    have own := (inv.tracked conn).stamps p member
    rw [found] at own
    exact absurd own not_mem_nil
  refine inv.move atomic carries ⟨inv.not_checked (by simp [found]), by simp [found], ?_, ?_, fun left known => ?_⟩
  · rw [here]
    simp
  · rw [quiet]
    refine .empty ?_ ?_ <;> simp [Session.txn]
  · exact .inl quiet

theorem Inv.retire_aborted (inv : Inv s) {goal : Goal} (aborts : goal ≠ .commit) {pending : List Nat}
    (found : s.core.session conn = .retiring goal context pending)
    (stepped : s.core.step (.retire conn) = some core) : Inv { s with core } := by
  obtain ⟨atomic, carries⟩ := inv.core_step (e := .retire conn) ⟨trivial, trivial⟩ stepped
  have unchecked : conn ∉ s.checked := inv.not_checked (by simp [found])
  have before (left : TxnContext) (rest : List Nat) : s.core.session conn ≠ .retiring .commit left rest := by
    rw [found]
    rintro ⟨⟩
    exact aborts rfl
  rcases pending with _ | ⟨xid, _ | ⟨next, rest⟩⟩
  · simp [System.step, found] at stepped
  · simp only [System.step, found, Option.some.injEq] at stepped
    subst stepped
    cases goal with
    | commit => exact absurd rfl aborts
    | rollback => exact inv.move_idle found atomic carries
    | resume =>
      refine inv.move_same unchecked atomic carries before (by simp) ?_ ?_
      all_goals
        rw [found]
        rfl
  · simp only [System.step, found, Option.some.injEq] at stepped
    subst stepped
    refine inv.move_same unchecked atomic carries before ?_ ?_ ?_
    · rintro left remaining ⟨⟩
      exact aborts rfl
    · rw [found]
      rfl
    · rw [found]
      cases goal <;> rfl

theorem Inv.retire_committing (inv : Inv s) {next : Nat} {rest : List Nat}
    (found : s.core.session conn = .retiring .commit context (xid :: next :: rest))
    (stepped : s.core.step (.retire conn) = some core) : Inv { s with core } := by
  obtain ⟨atomic, carries⟩ := inv.core_step (e := .retire conn) ⟨trivial, trivial⟩ stepped
  simp only [System.step, found, Option.some.injEq] at stepped
  subst stepped
  let core := s.core.move conn (.retiring .commit context (next :: rest)) (s.core.journal conn)
    (retireOne .commit s.core.manager xid)
  have here : core.session conn = .retiring .commit context (next :: rest) :=
    (session_move _ _ _ _ _ _).trans (if_pos rfl)
  have elsewhere {other : Nat} (different : other ≠ conn) : core.session other = s.core.session other :=
    (session_move _ _ _ _ _ _).trans (if_neg different)
  have txn (other : Nat) : (core.session other).txn = (s.core.session other).txn := by
    by_cases same : other = conn
    · rw [same, here, found]
      rfl
    · rw [elsewhere same]
  have surviving (other : Nat) : (core.session other).surviving = (s.core.session other).surviving := by
    by_cases same : other = conn
    · rw [same, here, found]
      rfl
    · rw [elsewhere same]
  refine inv.frame conn (fun _ _ => False) atomic inv.wellFormed carries rfl
    (fun other different => ⟨elsewhere different, rfl⟩) (fun other member => ⟨member, txn other, rfl⟩)
    (.refl s.store) (fun _ _ _ _ => id) ?_ ?_ (fun other member => ?_) (fun other left pending retiring => ?_)
    fun other held => ?_
  · exact (inv.tracked conn).carry carries (txn conn) (surviving conn ▸ List.Subset.refl _)
  · intro a member d deleted p written collection id left known
    rw [txn] at known
    exact inv.overlap a member d deleted conn p written collection id left known
  · have different : other ≠ conn := fun same => inv.not_checked (by simp [found]) (same ▸ member)
    rw [elsewhere different]
    exact inv.checked other member
  · by_cases same : other = conn
    · rw [same]
      exact inv.published conn context _ found
    · rw [elsewhere same] at retiring
      exact inv.published other left pending retiring
  · obtain ⟨retiring, stamped⟩ := inv.holder other held
    refine ⟨?_, surviving other ▸ stamped⟩
    by_cases same : other = conn
    · exact ⟨context, _, same ▸ here⟩
    · rw [elsewhere same]
      exact retiring

def lastCommit (s : RowSystem) (conn : Nat) (context : TxnContext) : RowCommit :=
  ⟨⟨context, s.core.journal conn, s.core.captures.length⟩, s.writes conn⟩

section

variable (inv : Inv s)
include inv

theorem Inv.finished_last (found : s.core.session conn = .retiring .commit context [xid])
    {core : System} (atomic : Atomic core) (carries : s.core.Carries core) (captures : core.captures = s.core.captures)
    (committed : (s.lastCommit conn context).done ∈ core.committed) :
    Finished core s.store (s.lastCommit conn context) := by
  have tracked := inv.tracked conn
  have surviving : (s.core.session conn).surviving = context.retireOrder := by rw [found]; rfl
  have parent : (s.core.session conn).parent = some context.xid := by rw [found]; rfl
  have settled {x : Nat} (own : x ∈ context.retireOrder) : Detached core x :=
    (atomic.owns.settled _ committed x own).detached
  refine ⟨committed, by rw [captures]; exact le_rfl, fun c member foreign x own => ?_, fun p member => ?_,
    tracked.installed, fun d deleted => ?_⟩
  · rw [captures] at member
    exact inv.atomic.pending c (mem_of_mem_take member) conn (parent ▸ foreign) x (surviving ▸ own)
  · exact surviving ▸ tracked.stamps p member
  · obtain ⟨-, stamped⟩ := inv.holder conn (inv.published conn context _ found)
    obtain ⟨w, stored', collection', id', stamp⟩ := stamped d deleted
    obtain ⟨v, stored, collection, id, row, origin⟩ :=
      tracked.versions context (by rw [found]; rfl) d (mem_append_right _ deleted)
    have same : v = w := inv.wellFormed.eq_of_id stored stored' (collection'.trans collection.symm)
      (id'.trans id.symm)
    subst same
    refine ⟨v, stored, collection, id, row, ?_, surviving ▸ stamp⟩
    rcases origin with ⟨own, -⟩ | ⟨detached, -⟩
    · exact settled own
    · exact carries.detached _ detached

theorem Inv.meets_of_version {other : Nat} {context' : TxnContext}
    (txn : (s.core.session conn).txn = some context) (txn' : (s.core.session other).txn = some context')
    {p q : PendingTombstone} (written : p ∈ (s.writes conn).stamps) (written' : q ∈ (s.writes other).stamps)
    (sameCollection : q.collection = p.collection) (sameId : q.id = p.id) :
    (s.writes conn).Meets (s.writes other) := by
  obtain ⟨v, stored, collection, id, row, -⟩ := (inv.tracked conn).versions context txn p written
  obtain ⟨w, stored', collection', id', row', -⟩ := (inv.tracked other).versions context' txn' q written'
  have same : v = w := inv.wellFormed.eq_of_id stored stored'
    (collection'.trans (sameCollection.trans collection.symm)) (id'.trans (sameId.trans id.symm))
  refine ⟨(p.collection, p.logicalId), mem_map_of_mem written, mem_map.mpr ⟨q, written', ?_⟩⟩
  rw [sameCollection, ← row, ← row', same]

theorem Inv.addCommit {a : RowCommit} (finished : Finished s.core s.store a)
    (started : ∀ conn context, (s.core.session conn).txn = some context → s.StartedBefore context a)
    (clear : ∀ t ∈ a.writes.tombstones, ∀ conn ∈ s.committing, ∀ p ∈ (s.writes conn).stamps,
      ¬ (p.collection = t.collection ∧ p.id = t.id))
    (apart : ∀ conn ∈ s.committing, ¬ (s.writes conn).Meets a.writes)
    (serial : ∀ before ∈ s.commits, a.done.context.isolation = .snapshotIsolation →
      a.writes.Meets before.writes → ¬ s.StartedBefore a.done.context before) :
    Inv { s with commits := s.commits ++ [a] } := by
  have cases {b : RowCommit} (member : b ∈ s.commits ++ [a]) : b ∈ s.commits ∨ b = a :=
    (mem_append.mp member).imp_right mem_singleton.mp
  refine { inv with
    finished := fun b member => ?_, overlap := fun b member => ?_, clear := fun b member => ?_
    passed := fun b member => ?_, serial := ?_ }
  · rcases cases member with before | rfl
    · exact inv.finished b before
    · exact finished
  · rcases cases member with before | rfl
    · exact inv.overlap b before
    · exact fun _ _ conn _ _ _ _ context txn => started conn context txn
  · rcases cases member with before | rfl
    · exact inv.clear b before
    · exact clear
  · rcases cases member with before | rfl
    · exact inv.passed b before
    · exact fun conn member _ _ _ meets => absurd meets (apart conn member)
  · refine pairwise_append.mpr ⟨inv.serial, pairwise_singleton _ _, fun b before new member => ?_⟩
    rw [mem_singleton.mp member]
    exact serial b before

theorem Inv.finish_commit (found : s.core.session conn = .retiring .commit context [xid])
    {core : System} (stepped : s.core.step (.retire conn) = some core) :
    Inv { s.withWrites conn .empty with
      core, publication := none, commits := s.commits ++ [s.lastCommit conn context] } := by
  obtain ⟨atomic, carries⟩ := inv.core_step (e := .retire conn) ⟨trivial, trivial⟩ stepped
  simp only [System.step, found, Option.some.injEq] at stepped
  have captures : core.captures = s.core.captures := by rw [← stepped]; rfl
  have committed : (s.lastCommit conn context).done ∈ core.committed := by
    rw [← stepped]
    exact mem_append_right _ mem_cons_self
  have sessions (other : Nat) : core.session other = if other = conn then .idle else s.core.session other := by
    rw [← stepped]
    exact session_move _ _ _ _ _ s.core.manager
  have here : core.session conn = .idle := (sessions conn).trans (if_pos rfl)
  have elsewhere {other : Nat} (different : other ≠ conn) : core.session other = s.core.session other :=
    (sessions other).trans (if_neg different)
  have writes {other : Nat} (different : other ≠ conn) : (s.withWrites conn .empty).writes other = s.writes other :=
    Function.update_of_ne different _ _
  have held : s.publication = some conn := inv.published conn context _ found
  have unchecked : conn ∉ s.checked := inv.not_checked (by simp [found])
  have txn : (s.core.session conn).txn = some context := by rw [found]; rfl
  have member : conn ∈ s.committing := Finset.mem_union_right _ (Option.mem_toFinset.mpr held)
  let left : RowSystem := { s.withWrites conn .empty with core, publication := none }
  have idle : left.writes conn = .empty := Function.update_self _ _ _
  have others {other : Nat} (still : other ∈ left.committing) : other ≠ conn ∧ other ∈ s.committing := by
    have checked : other ∈ s.checked := (Finset.mem_union.mp still).resolve_right (Finset.notMem_empty other)
    exact ⟨fun same => unchecked (same ▸ checked), Finset.mem_union_left _ checked⟩
  have released : Inv left := by
    refine inv.frame conn (fun _ _ => False) atomic inv.wellFormed carries rfl
      (fun other different => ⟨elsewhere different, writes different⟩) (fun other still => ?_) (.refl s.store)
      (fun _ _ _ _ => id) ?_ ?_ (fun other checked => ?_) (fun other context' pending retiring => ?_)
      fun other none => ?_
    · obtain ⟨different, before⟩ := others still
      exact ⟨before, by rw [elsewhere different], writes different⟩
    · rw [idle]
      refine .empty ?_ ?_ <;> simp [left, here, Session.txn]
    · rw [idle]
      exact fun _ _ _ _ _ written => absurd written not_mem_nil
    · rw [elsewhere fun same => unchecked (same ▸ checked)]
      exact inv.checked other checked
    · have different : other ≠ conn := by
        rintro rfl
        rw [here] at retiring
        cases retiring
      rw [elsewhere different] at retiring
      rw [inv.published other context' pending retiring] at held
      exact absurd (Option.some.inj held) different
    · cases none
  refine released.addCommit (inv.finished_last found atomic carries captures committed)
    (fun other context' known => ?_) (fun d deleted other still p written same => ?_) (fun other still meets => ?_)
    fun a before level meets started => ?_
  · have all : core.captures.take (s.lastCommit conn context).done.capturesBefore = core.captures := by
      rw [captures]
      exact take_length
    rw [StartedBefore, all]
    exact (released.tracked other).captured context' known
  · obtain ⟨different, before⟩ := others still
    have apart := inv.apart other before conn member different
    rw [writes different] at written
    obtain ⟨context', known⟩ : ∃ context', (s.core.session other).txn = some context' := by
      cases known : (s.core.session other).txn with
      | some context' => exact ⟨context', rfl⟩
      | none =>
        rw [(inv.tracked other).quiet known] at written
        exact absurd written not_mem_nil
    exact apart (inv.meets_of_version known txn written (mem_append_right _ deleted) same.1.symm same.2.symm)
  · obtain ⟨different, before⟩ := others still
    rw [writes different] at meets
    exact inv.apart other before conn member different meets
  · have earlier := (startedBefore_carry (inv.finished a before) carries context).mp started
    exact inv.passed a before conn member context txn level meets earlier

theorem Inv.retire_step {t : RowSystem} (taken : s.step (.retire conn) = some t) : Inv t := by
  simp only [step] at taken
  split at taken
  · rename_i context xid found
    obtain ⟨core, stepped, rfl⟩ := Option.map_eq_some_iff.mp taken
    exact inv.finish_commit found stepped
  · rename_i goal context pending last found
    obtain ⟨core, stepped, rfl⟩ := Option.map_eq_some_iff.mp taken
    by_cases commits : goal = .commit
    · subst commits
      rcases pending with _ | ⟨xid, _ | ⟨next, rest⟩⟩
      · simp [System.step, found] at stepped
      · exact absurd rfl (last xid rfl)
      · exact inv.retire_committing found stepped
    · exact inv.retire_aborted commits found stepped
  · cases taken

end

end

theorem Inv.step {s t : RowSystem} {e : RowEvent} (inv : Inv s) (separated : s.Separated e)
    (taken : s.step e = some t) : Inv t := by
  cases e with
  | session e =>
    simp only [RowSystem.step] at taken
    split_ifs at taken with forwards
    obtain ⟨core, stepped, rfl⟩ := Option.map_eq_some_iff.mp taken
    exact inv.session_step separated forwards stepped
  | insert => exact inv.insert_step taken
  | update => exact inv.update_step separated taken
  | delete => exact inv.delete_step separated taken
  | rollbackTo => exact inv.rollbackTo_step taken
  | rollback =>
    simp only [RowSystem.step] at taken
    split_ifs at taken
    exact inv.abandon_step (.inl rfl) taken
  | check => exact inv.check_step separated taken
  | refuse =>
    simp only [RowSystem.step] at taken
    split_ifs at taken
    exact inv.abandon_step (.inr rfl) taken
  | publish => exact inv.publish_step taken
  | retire => exact inv.retire_step taken

theorem first_committer_wins {events : List RowEvent} {s : RowSystem}
    (run : Run (Guarded (Steps step) Separated) .init events s) :
    s.commits.Pairwise fun a b => a.done.context.isolation = .snapshotIsolation →
      b.done.context.isolation = .snapshotIsolation → a.writes.Meets b.writes → ¬ s.Concurrent a b := by
  have preserved (before : RowSystem) (e : RowEvent) (after : RowSystem) (inv : Inv before)
      (taken : Guarded (Steps step) Separated before e after) : Inv after := inv.step taken.1 taken.2
  have inv : Inv s := run.invariant preserved .init
  exact inv.serial.imp fun apart _ level meets concurrent => apart level meets.symm concurrent.1

/-- Connection 0 inserts row `t`/1 and commits; then connections 1 and 2 start and both update it. -/
def bothUpdate : List RowEvent :=
  [.session (.begin 0 .snapshotIsolation), .session (.register 0), .session (.takeSnapshot 0), .insert 0 "t",
    .check 0, .publish 0 true, .retire 0,
    .session (.begin 1 .snapshotIsolation), .session (.register 1), .session (.takeSnapshot 1),
    .session (.begin 2 .snapshotIsolation), .session (.register 2), .session (.takeSnapshot 2),
    .update 1 "t" 1, .update 2 "t" 1]

theorem first_committer_wins_second_refused : ∃ s, Run (Guarded (Steps step) Separated) .init
        (bothUpdate ++ [.check 1, .publish 1 true, .retire 1, .check 2, .retire 2]) s ∧
      s.commits.map (·.done.context.xid) = [1, 2] ∧ s.core.manager.aborted = {3} ∧
      s.commits.Pairwise fun a b => a.done.context.isolation = .snapshotIsolation →
        b.done.context.isolation = .snapshotIsolation → a.writes.Meets b.writes → ¬ s.Concurrent a b := by
  obtain ⟨s, run, observed⟩ := execute_reaches step Separated .init
    (bothUpdate ++ [.check 1, .publish 1 true, .retire 1, .check 2, .retire 2])
    (fun s => decide (s.commits.map (·.done.context.xid) = [1, 2] ∧ s.core.manager.aborted = {3}))
    (by decide +kernel)
  obtain ⟨commits, aborted⟩ := of_decide_eq_true observed
  exact ⟨s, run, commits, aborted, first_committer_wins run⟩

/-- Both conflict checks run before either transaction publishes, and both find the other one active. -/
theorem both_committers_win : ∃ s, Run (Steps step) .init
        (bothUpdate ++ [.check 1, .check 2, .publish 1 true, .retire 1, .publish 2 true, .retire 2]) s ∧
      ∃ a ∈ s.commits, ∃ b ∈ s.commits, a.done.context.xid = 2 ∧ b.done.context.xid = 3 ∧
        a.done.context.isolation = .snapshotIsolation ∧ b.done.context.isolation = .snapshotIsolation ∧
        a.writes.Meets b.writes ∧ s.Concurrent a b := by
  obtain ⟨s, run, observed⟩ := execute_reaches step (fun _ _ => True) .init
    (bothUpdate ++ [.check 1, .check 2, .publish 1 true, .retire 1, .publish 2 true, .retire 2])
    (fun s => decide (∃ a ∈ s.commits, ∃ b ∈ s.commits, a.done.context.xid = 2 ∧ b.done.context.xid = 3 ∧
      a.done.context.isolation = .snapshotIsolation ∧ b.done.context.isolation = .snapshotIsolation ∧
      a.writes.Meets b.writes ∧ s.Concurrent a b))
    (by decide +kernel)
  exact ⟨s, run.mono fun _ _ _ => And.right, of_decide_eq_true observed⟩

end RowSystem

end RedDB.Transaction
