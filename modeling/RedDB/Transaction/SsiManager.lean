import RedDB.Transaction.Manager

namespace RedDB.Transaction

open Library Table Finset Option

namespace SnapshotManager

structure Extends (before after : SerializableTxnState) : Prop where
  readSet : after.readSet = before.readSet
  vaultReads : after.vaultReads = before.vaultReads
  committed : after.committed = before.committed
  outgoing : before.outgoingRw ⊆ after.outgoingRw

/-- What a commit check by `writer` does to the entries, where `hits` says whose recorded reads
    it collides with. -/
structure Checked (m : SnapshotManager) (writer : Nat) (hits : SerializableTxnState → Prop)
    (answer : Bool × SnapshotManager) : Prop where
  active : answer.2.active = m.active
  entries : ∀ x before, m.serializable.get? x = some before →
    ∃ after, answer.2.serializable.get? x = some after ∧ Extends before after
  back : ∀ x after, answer.2.serializable.get? x = some after → ∃ before, m.serializable.get? x = some before
  edges : ∀ ssi, m.serializable.get? writer = some ssi → ∀ x before, m.serializable.get? x = some before →
    x ≠ writer → hits before →
    ∃ after, answer.2.serializable.get? x = some after ∧ writer ∈ after.outgoingRw
  detects : ∀ ssi, m.serializable.get? writer = some ssi →
    (∃ x reader, m.serializable.get? x = some reader ∧ x ≠ writer ∧ hits reader) →
    (∃ x ∈ ssi.outgoingRw, ∃ out, m.serializable.get? x = some out ∧ out.committed = true) →
    answer.1 = true

section

variable (m : SnapshotManager) (writer : Nat)
include m writer

variable {hits : SerializableTxnState → Prop}

theorem Checked.skip (none : (∃ ssi, m.serializable.get? writer = some ssi) → ∀ ssi, ¬ hits ssi) :
    Checked m writer hits (false, m) where
  active := rfl
  entries := fun _ before found => ⟨before, found, rfl, rfl, rfl, Finset.Subset.refl _⟩
  back := fun _ after found => ⟨after, found⟩
  edges := fun ssi entry _ before _ _ hit => absurd hit (none ⟨ssi, entry⟩ before)
  detects := fun ssi entry ⟨_, reader, _, _, hit⟩ _ => absurd hit (none ⟨ssi, entry⟩ reader)

theorem serializableReadersWouldBeDangerous_get? (readers : Finset Nat) (x : Nat) :
    (m.serializableReadersWouldBeDangerous writer readers).2.serializable.get? x =
      (m.serializable.get? x).map fun ssi =>
        { ssi with
          outgoingRw := if x ∈ readers then insert writer ssi.outgoingRw else ssi.outgoingRw
          incomingRw := if x = writer then ssi.incomingRw ∪ readers else ssi.incomingRw } := by
  simp only [serializableReadersWouldBeDangerous, get?_modify, get?_mapValues]
  by_cases same : x = writer
  · subst same
    cases m.serializable.get? x with
    | none => simp
    | some ssi => by_cases reads : x ∈ readers <;> simp [reads]
  · cases m.serializable.get? x with
    | none => simp [same]
    | some ssi => by_cases reads : x ∈ readers <;> simp [reads, same]

theorem serializableReadersWouldBeDangerous_checked {readers : Finset Nat}
    (reads : ∀ x ssi, m.serializable.get? x = some ssi → (x ∈ readers ↔ x ≠ writer ∧ hits ssi)) :
    Checked m writer hits (m.serializableReadersWouldBeDangerous writer readers) where
  active := rfl
  entries := by
    intro x before found
    rw [serializableReadersWouldBeDangerous_get?, found]
    refine ⟨_, rfl, rfl, rfl, rfl, ?_⟩
    simp only
    split_ifs
    · exact subset_insert _ _
    · exact Finset.Subset.refl _
  back := by
    intro x after found
    rw [serializableReadersWouldBeDangerous_get?] at found
    obtain ⟨before, entry, -⟩ := map_eq_some_iff.mp found
    exact ⟨before, entry⟩
  edges := by
    intro ssi entry x before found other hit
    rw [serializableReadersWouldBeDangerous_get?, found]
    refine ⟨_, rfl, ?_⟩
    simp only [(reads x before found).mpr ⟨other, hit⟩, if_true]
    exact mem_insert_self _ _
  detects := by
    rintro ssi entry ⟨x, reader, found, other, hit⟩ ⟨y, outgoing, out, exit, committed⟩
    have member := (reads x reader found).mpr ⟨other, hit⟩
    have own := serializableReadersWouldBeDangerous_get? m writer readers writer
    have target := serializableReadersWouldBeDangerous_get? m writer readers y
    rw [entry, map_some] at own
    rw [exit, map_some] at target
    simp only [serializableReadersWouldBeDangerous] at own target ⊢
    rw [own]
    simp only [if_true, decide_eq_true_eq]
    refine ⟨⟨x, mem_union_right _ member⟩, y, ?_, ?_⟩
    · split_ifs
      · exact mem_insert_of_mem outgoing
      · exact outgoing
    · rw [target]
      exact committed

theorem serializableCommitWouldBeDangerous_checked (writeSet : Finset LogicalRowKey) :
    Checked m writer (fun ssi => ¬ Disjoint ssi.readSet writeSet)
      (m.serializableCommitWouldBeDangerous writer writeSet) := by
  unfold serializableCommitWouldBeDangerous
  split_ifs with empty registered
  · exact .skip m writer fun _ ssi => by simp [empty]
  · refine serializableReadersWouldBeDangerous_checked m writer fun x ssi found => ?_
    have key : x ∈ m.serializable.keys := mem_keys.mpr ⟨ssi, found⟩
    have value : m.serializable.value x = ssi := by simpa [get?, key] using found
    simp only [rowReaders, mem_filter, key, true_and, value]
  · exact .skip m writer fun entry => absurd (mem_keys.mpr entry) registered

theorem serializableVaultCommitWouldBeDangerous_checked (writeSet : Finset VaultWrite) : Checked m writer
      (fun ssi => ∃ read ∈ ssi.vaultReads, ∃ write ∈ writeSet, vaultReadMatches read write = true)
      (m.serializableVaultCommitWouldBeDangerous writer writeSet) := by
  unfold serializableVaultCommitWouldBeDangerous
  split_ifs with registered
  · refine serializableReadersWouldBeDangerous_checked m writer fun x ssi found => ?_
    have key : x ∈ m.serializable.keys := mem_keys.mpr ⟨ssi, found⟩
    have value : m.serializable.value x = ssi := by simpa [get?, key] using found
    simp only [vaultReaders, mem_filter, key, true_and, value]
  · exact .skip m writer fun entry => absurd (mem_keys.mpr entry) registered

end

/-- An operation on `x` that leaves the other entries' reads, outcomes and outgoing edges to
    other ids alone, unless nothing is active any more. -/
structure Carries (m m' : SnapshotManager) (x : Nat) : Prop where
  active : ∀ y, y ≠ x → y ∈ m.active → y ∈ m'.active
  entries : m'.active.Nonempty → ∀ y before, y ≠ x → m.serializable.get? y = some before →
    ∃ after, m'.serializable.get? y = some after ∧ after.readSet = before.readSet ∧
      after.vaultReads = before.vaultReads ∧ after.committed = before.committed ∧
      ∀ z, z ≠ x → z ∈ before.outgoingRw → z ∈ after.outgoingRw
  back : ∀ y after, y ≠ x → m'.serializable.get? y = some after → ∃ before, m.serializable.get? y = some before

theorem pruneSerializableState_get? {m : SnapshotManager} (busy : m.active.Nonempty) :
    m.pruneSerializableState.serializable = m.serializable := by
  have filled : m.active ≠ ∅ := nonempty_iff_ne_empty.mp busy
  simp [pruneSerializableState, filled]

theorem pruneSerializableState_back {m : SnapshotManager} {x : Nat} {ssi : SerializableTxnState}
    (found : m.pruneSerializableState.serializable.get? x = some ssi) :
    m.serializable.get? x = some ssi := by
  unfold pruneSerializableState at found
  split_ifs at found
  · simp at found
  · exact found

theorem commit_carries (m : SnapshotManager) (x : Nat) : Carries m (m.commit x) x where
  active := by
    intro y other member
    simp only [commit, pruneSerializableState_active]
    exact mem_erase.mpr ⟨other, member⟩
  entries := by
    intro busy y before other found
    refine ⟨before, ?_, rfl, rfl, rfl, fun _ _ member => member⟩
    simp only [commit, pruneSerializableState_active] at busy ⊢
    rw [pruneSerializableState_get? busy, get?_modify, if_neg other]
    exact found
  back := by
    intro y after other found
    have before := pruneSerializableState_back found
    rw [get?_modify, if_neg other] at before
    exact ⟨after, before⟩

theorem rollback_carries (m : SnapshotManager) (x : Nat) : Carries m (m.rollback x) x where
  active := by
    intro y other member
    simp only [rollback, pruneSerializableState_active]
    exact mem_erase.mpr ⟨other, member⟩
  entries := by
    intro busy y before other found
    simp only [rollback, pruneSerializableState_active] at busy ⊢
    rw [pruneSerializableState_get? busy, get?_mapValues, get?_erase, if_neg other, found]
    exact ⟨_, rfl, rfl, rfl, rfl, fun z apart member => mem_erase.mpr ⟨apart, member⟩⟩
  back := by
    intro y after other found
    have before := pruneSerializableState_back found
    rw [get?_mapValues, get?_erase, if_neg other] at before
    obtain ⟨ssi, entry, -⟩ := map_eq_some_iff.mp before
    exact ⟨ssi, entry⟩

theorem Checked.carries {m : SnapshotManager} {writer : Nat} {hits : SerializableTxnState → Prop}
    {answer : Bool × SnapshotManager} (checked : Checked m writer hits answer) (x : Nat) :
    Carries m answer.2 x where
  active := fun _ _ member => checked.active.symm ▸ member
  entries := by
    intro _ y before _ found
    obtain ⟨after, entry, extended⟩ := checked.entries y before found
    exact ⟨after, entry, extended.readSet, extended.vaultReads, extended.committed,
      fun z _ member => extended.outgoing member⟩
  back := fun y after _ found => checked.back y after found

theorem carries_of_serializable {m m' : SnapshotManager} {x : Nat} (active : m'.active = m.active)
    (others : ∀ y, y ≠ x → m'.serializable.get? y = m.serializable.get? y) : Carries m m' x where
  active := fun _ _ member => active.symm ▸ member
  entries := fun _ y before other found =>
    ⟨before, (others y other).trans found, rfl, rfl, rfl, fun _ _ member => member⟩
  back := fun y after other found => ⟨after, (others y other).symm.trans found⟩

section

variable (m : SnapshotManager)
include m

theorem snapshot_serializable (xid : Nat) : (m.snapshot xid).2.serializable = m.serializable := by
  simp only [snapshot]
  split_ifs <;> rfl

theorem snapshot_active (xid : Nat) : (m.snapshot xid).2.active = m.active := by
  simp only [snapshot]
  split_ifs <;> rfl

theorem commit_get? (xid y : Nat) (busy : (m.commit xid).active.Nonempty) : (m.commit xid).serializable.get? y =
      if y = xid then (m.serializable.get? xid).map fun ssi => { ssi with committed := true }
      else m.serializable.get? y := by
  simp only [commit, pruneSerializableState_active] at busy ⊢
  rw [pruneSerializableState_get? busy, get?_modify]

theorem beginSerializable_get? (xid y : Nat) : (m.beginSerializable xid).serializable.get? y =
      if y = xid then some ((m.serializable.get? y).getD .default) else m.serializable.get? y := by
  unfold beginSerializable
  by_cases same : y = xid
  · subst same
    cases found : m.serializable.get? y <;> simp [found, get?_insert]
  · cases found : m.serializable.get? xid <;> simp [same, get?_insert]

theorem beginSerializable_active (xid : Nat) : (m.beginSerializable xid).active = m.active := by
  unfold beginSerializable
  cases m.serializable.get? xid <;> rfl

end

end SnapshotManager

end RedDB.Transaction
