import RedDB.Replication.SpoolScan

namespace RedDB.Replication

open List Library LogicalWalSpoolState UInt64 Nat

def Increasing (entries : List LogicalWalEntry) : Prop := entries.Pairwise fun a b => a.lsn < b.lsn

def Checkpoint (crc32 : Bytes → UInt32) (entries : List LogicalWalEntry) (checkpoint : UInt64 × Nat) : Prop :=
  ∃ before entry after, entries = before ++ entry :: after ∧ checkpoint.1 = entry.lsn ∧
    checkpoint.2 = (framesOf crc32 before).length

structure Indexed (crc32 : Bytes → UInt32) (entries : List LogicalWalEntry) (index : List (UInt64 × Nat)) : Prop where
  ascending : index.Pairwise fun a b => a.1 < b.1
  checkpoints : ∀ checkpoint ∈ index, Checkpoint crc32 entries checkpoint

section

variable {crc32 : Bytes → UInt32} {entries : List LogicalWalEntry} {index : List (UInt64 × Nat)}

theorem indexed_nil : Indexed crc32 [] [] := ⟨.nil, fun _ member => by cases member⟩

theorem Indexed.push (indexed : Indexed crc32 entries index) {entry : LogicalWalEntry}
    (increasing : Increasing (entries ++ [entry])) (ordinal : Nat) :
    Indexed crc32 (entries ++ [entry])
      (pushCheckpoint index ordinal entry.lsn (framesOf crc32 entries).length) := by
  have kept (checkpoint : UInt64 × Nat) (member : checkpoint ∈ index) :
      Checkpoint crc32 (entries ++ [entry]) checkpoint := by
    obtain ⟨before, other, after, split, lsn, offset⟩ := indexed.checkpoints checkpoint member
    exact ⟨before, other, after ++ [entry], by rw [split, append_assoc, cons_append], lsn, offset⟩
  rw [pushCheckpoint]
  split_ifs
  · refine ⟨pairwise_append.mpr ⟨indexed.ascending, pairwise_singleton _ _, fun checkpoint member last same => ?_⟩,
      fun checkpoint member => ?_⟩
    · obtain ⟨before, other, after, split, lsn, -⟩ := indexed.checkpoints checkpoint member
      have listed : other ∈ entries := split ▸ mem_append_right _ (mem_cons_self ..)
      rw [mem_singleton.mp same, lsn]
      exact (pairwise_append.mp increasing).2.2 other listed entry (mem_singleton_self _)
    · rcases mem_append.mp member with member | member
      · exact kept checkpoint member
      · rw [mem_singleton.mp member]
        exact ⟨entries, entry, [], rfl, rfl, rfl⟩
  · exact ⟨indexed.ascending, kept⟩

structure Built (crc32 : Bytes → UInt32) (entries : List LogicalWalEntry) (built : SeekIndex) : Prop where
  indexed : Indexed crc32 entries built.index
  writeOffset : built.writeOffset = (framesOf crc32 entries).length
  ordinal : built.ordinal = entries.length

theorem Built.loop {done : List LogicalWalEntry} {built : SeekIndex} (known : Built crc32 done built)
    (stored : ∀ entry ∈ entries, Stored entry) (increasing : Increasing (done ++ entries)) {fuel : Nat}
    (enough : entries.length < fuel) :
    Built crc32 (done ++ entries) (buildLoop crc32 fuel (framesOf crc32 entries) built) := by
  obtain ⟨fuel, rfl⟩ := exists_eq_succ_of_ne_zero (ne_of_gt (zero_lt_of_lt enough))
  induction entries generalizing done built fuel with
  | nil =>
    rw [append_nil]
    exact known
  | cons entry entries ih =>
    have more : entries.length < fuel := lt_of_succ_lt_succ enough
    obtain ⟨fuel, rfl⟩ := exists_eq_succ_of_ne_zero (ne_of_gt (zero_lt_of_lt more))
    have split : done ++ entry :: entries = done ++ [entry] ++ entries := by rw [append_assoc, singleton_append]
    have first : Increasing (done ++ [entry]) := (pairwise_append.mp (split ▸ increasing)).1
    rw [framesOf_cons, buildLoop, readFrame_frameOf (stored entry (mem_cons_self ..)), split]
    refine ih ⟨?_, ?_, ?_⟩ (fun e member => stored e (mem_cons_of_mem _ member)) (split ▸ increasing) fuel more
    · dsimp only
      rw [known.writeOffset]
      exact known.indexed.push first _
    · dsimp only
      rw [known.writeOffset, length_append, Nat.add_sub_cancel, framesOf_append, length_append]
      simp [framesOf]
    · dsimp only
      rw [known.ordinal, length_append, length_singleton]

theorem built_frames (stored : ∀ entry ∈ entries, Stored entry) (increasing : Increasing entries) :
    Built crc32 entries (buildLogicalWalSeekIndex crc32 (framesOf crc32 entries)) := by
  have start : Built crc32 [] ⟨[], 0, 0⟩ := ⟨indexed_nil, rfl, rfl⟩
  exact start.loop stored increasing (lt_succ_of_le (length_le_framesOf crc32 entries))

theorem exists_floor (ascending : index.Pairwise fun a b => a.1 < b.1) (lsn : UInt64) :
    ∃ below above, index = below ++ above ∧ (∀ c ∈ below, c.1 < lsn) ∧ ∀ c ∈ above, lsn ≤ c.1 := by
  induction index with
  | nil => exact ⟨[], [], rfl, forall_mem_nil _, forall_mem_nil _⟩
  | cons c index ih =>
    obtain ⟨first, rest⟩ := pairwise_cons.mp ascending
    by_cases less : c.1 < lsn
    · obtain ⟨below, above, split, smaller, larger⟩ := ih rest
      exact ⟨c :: below, above, by rw [split, cons_append], forall_mem_cons.mpr ⟨less, smaller⟩, larger⟩
    · have least : lsn ≤ c.1 := UInt64.not_lt.mp less
      exact ⟨[], c :: index, rfl, forall_mem_nil _,
        forall_mem_cons.mpr ⟨least, fun d member => UInt64.le_of_lt (UInt64.lt_of_le_of_lt least (first d member))⟩⟩

variable {state : LogicalWalSpoolState}

theorem seekFloorOffset_cases (ascending : state.seekIndex.Pairwise fun a b => a.1 < b.1)
    (lsn : UInt64) :
    state.seekFloorOffset lsn = 0 ∨
      ∃ checkpoint ∈ state.seekIndex, checkpoint.1 ≤ lsn ∧ state.seekFloorOffset lsn = checkpoint.2 := by
  obtain ⟨below, above, split, smaller, larger⟩ := exists_floor ascending lsn
  have less (c : UInt64 × Nat) (member : c ∈ below) : compare c.1.toNat lsn.toNat = .lt :=
    Nat.compare_eq_lt.mpr (lt_iff_toNat_lt.mp (smaller c member))
  have ordered : above.Pairwise fun a b => a.1 < b.1 := (pairwise_append.mp (split ▸ ascending)).2.1
  rw [seekFloorOffset]
  by_cases hit : ∃ c ∈ above.head?, c.1 = lsn
  · obtain ⟨c, head, same⟩ := hit
    obtain ⟨rest, rfl⟩ : ∃ rest, above = c :: rest := head?_eq_some_iff.mp head
    have greater (d : UInt64 × Nat) (member : d ∈ rest) : compare d.1.toNat lsn.toNat = .gt := by
      have later := (pairwise_cons.mp ordered).1 d member
      rw [same] at later
      exact Nat.compare_eq_gt.mpr (lt_iff_toNat_lt.mp later)
    have equal : compare c.1.toNat lsn.toNat = .eq := Nat.compare_eq_eq.mpr (congrArg UInt64.toNat same)
    have found := binarySearch_found less equal greater
    refine .inr ⟨c, ?_, UInt64.le_of_eq same, ?_⟩
    · rw [split]
      exact mem_append_right _ (mem_cons_self ..)
    · rw [split, found]
      simp [checkpointOffset, split]
  · have greater (c : UInt64 × Nat) (member : c ∈ above) : compare c.1.toNat lsn.toNat = .gt := by
      have least := larger c member
      refine Nat.compare_eq_gt.mpr (lt_iff_toNat_lt.mp (UInt64.lt_of_le_of_ne least fun same => hit ?_))
      cases above with
      | nil => cases member
      | cons d rest =>
        refine ⟨d, rfl, UInt64.le_antisymm ?_ (larger d (mem_cons_self ..))⟩
        rcases mem_cons.mp member with rfl | later
        · exact UInt64.le_of_eq same.symm
        · rw [same]
          exact UInt64.le_of_lt ((pairwise_cons.mp ordered).1 c later)
    have missed := binarySearch_notFound less greater
    rcases eq_nil_or_concat below with rfl | ⟨rest, last, rfl⟩
    · rw [split, missed]
      exact .inl rfl
    · refine .inr ⟨last, ?_, UInt64.le_of_lt (smaller last (by simp)), ?_⟩
      · rw [split]
        simp
      · rw [split, missed, concat_eq_append, length_append, length_singleton]
        simp [checkpointOffset, split]

theorem Indexed.seekFloor (indexed : Indexed crc32 entries state.seekIndex)
    (increasing : Increasing entries) (lsn : UInt64) :
    ∃ before after, entries = before ++ after ∧ state.seekFloorOffset lsn = (framesOf crc32 before).length ∧
      ∀ entry ∈ before, entry.lsn ≤ lsn := by
  rcases seekFloorOffset_cases indexed.ascending lsn with start | ⟨checkpoint, member, below, offset⟩
  · exact ⟨[], entries, rfl, start, forall_mem_nil _⟩
  · obtain ⟨before, entry, after, split, same, position⟩ := indexed.checkpoints checkpoint member
    refine ⟨before, entry :: after, split, offset.trans position, fun other listed => ?_⟩
    rw [split] at increasing
    have smaller := (pairwise_append.mp increasing).2.2 other listed entry (mem_cons_self ..)
    exact UInt64.le_of_lt (UInt64.lt_of_lt_of_le smaller (same ▸ below))

end

end RedDB.Replication
