import RedDB.Replication.Spool

namespace RedDB.Replication

open List Library Library.ByteReader Nat

structure Stored (entry : LogicalWalEntry) : Prop where
  version : entry.version = logicalWalSpoolVersionV3
  epoch : entry.ownershipEpoch ≠ some 0
  believable : entry.data.length ≤ maxPlausiblePayload

section

variable (crc32 : Bytes → UInt32)

def frameBody (entry : LogicalWalEntry) : Bytes :=
  u64Bytes entry.term ++ (u64Bytes (entry.ownershipEpoch.getD 0) ++ (u64Bytes entry.lsn ++
    (u64Bytes entry.timestampMs ++ (toLeBytes 4 entry.data.length ++ (entry.data ++ toLeBytes 4
      (computeLogicalV3Crc crc32 logicalWalSpoolVersionV3 entry.term entry.ownershipEpoch entry.lsn entry.timestampMs
        entry.data).toNat)))))

def frameOf (entry : LogicalWalEntry) : Bytes :=
  logicalWalSpoolMagic ++ logicalWalSpoolVersionV3 :: frameBody crc32 entry

variable {crc32} {entry : LogicalWalEntry}

theorem length_frameOf : (frameOf crc32 entry).length = 45 + entry.data.length := by
  simp only [frameOf, frameBody, u64Bytes, logicalWalSpoolMagic, length_append, length_cons, length_nil,
    length_toLeBytes]
  omega

theorem encodeEntry_ok (stored : Stored entry) : encodeEntry crc32 entry = .ok (frameOf crc32 entry) := by
  have short := stored.believable
  simp only [maxPlausiblePayload] at short
  have small : ¬entry.data.length > 2 ^ 32 - 1 := by omega
  rw [encodeEntry, encodeLogicalWalV3, if_neg small]
  rfl

theorem reads_readU64 (value : UInt64) : Reads .torn readU64 (u64Bytes value) value :=
  (reads_readLe value.toNat_lt).map UInt64.ofNat_toNat

theorem reads_readPayload {payload : Bytes} (believable : payload.length ≤ maxPlausiblePayload) :
    Reads .torn (readPayload payload.length) payload payload := by
  rw [readPayload, if_neg (Nat.not_lt.mpr believable)]
  exact reads_readTracked rfl

theorem epochOf_getD {epoch : Option UInt64} (known : epoch ≠ some 0) : epochOf (epoch.getD 0) = epoch := by
  cases epoch with
  | none => rfl
  | some epoch => exact if_neg fun zero => known (congrArg some zero)

section

variable (stored : Stored entry)
include stored

theorem reads_frameBody : Reads .torn (readOneV3 crc32) (frameBody crc32 entry) entry := by
  have short := stored.believable
  simp only [maxPlausiblePayload] at short
  have small : entry.data.length < 256 ^ 4 := by omega
  have epoch := epochOf_getD stored.epoch
  let crc := computeLogicalV3Crc crc32 logicalWalSpoolVersionV3 entry.term entry.ownershipEpoch entry.lsn
    entry.timestampMs entry.data
  have checked : checkCrc crc.toNat crc.toNat { entry with version := logicalWalSpoolVersionV3 } = pure entry := by
    rw [checkCrc, if_neg (not_not_intro rfl), ← stored.version]
  apply (reads_readU64 entry.term).bind _ rfl
  apply (reads_readU64 (entry.ownershipEpoch.getD 0)).bind _ rfl
  apply (reads_readU64 entry.lsn).bind _ rfl
  apply (reads_readU64 entry.timestampMs).bind _ rfl
  apply (reads_readLe small).bind _ rfl
  apply (reads_readPayload stored.believable).bind _ rfl
  apply (reads_readLe crc.toNat_lt).bind _ (append_nil _)
  rw [epoch, checked]
  exact reads_pure entry

theorem readFrame_frameOf (rest : Bytes) : readFrame crc32 (frameOf crc32 entry ++ rest) = .entry entry rest := by
  have long : ¬(frameOf crc32 entry ++ rest).length < 4 := by
    simp only [frameOf, logicalWalSpoolMagic, length_append, length_cons]
    omega
  have magic : (frameOf crc32 entry ++ rest).take 4 = logicalWalSpoolMagic := rfl
  have behind : (frameOf crc32 entry ++ rest).drop 4 = logicalWalSpoolVersionV3 :: (frameBody crc32 entry ++ rest) := rfl
  rw [readFrame, if_neg long, if_neg (not_not_intro magic), behind]
  simp only [if_true, readBody, (reads_frameBody stored []).whole rest]

theorem readFrame_cut {n : Nat} (marked : 4 ≤ n) (cut : n < (frameOf crc32 entry).length) :
    readFrame crc32 ((frameOf crc32 entry).take n) = .corrupt := by
  obtain ⟨m, rfl⟩ := Nat.exists_eq_add_of_le marked
  have part : (frameOf crc32 entry).take (4 + m) =
      logicalWalSpoolMagic ++ (logicalWalSpoolVersionV3 :: frameBody crc32 entry).take m := by
    have size : 4 = logicalWalSpoolMagic.length := rfl
    rw [size, frameOf, take_length_add_append]
  have long : ¬((frameOf crc32 entry).take (4 + m)).length < 4 := by
    rw [part, length_append]
    exact Nat.not_lt.mpr (Nat.le_add_right 4 _)
  have magic : ((frameOf crc32 entry).take (4 + m)).take 4 = logicalWalSpoolMagic := by
    rw [part]
    rfl
  have behind : ((frameOf crc32 entry).take (4 + m)).drop 4 =
      (logicalWalSpoolVersionV3 :: frameBody crc32 entry).take m := by
    rw [part]
    rfl
  rw [readFrame, if_neg long, if_neg (not_not_intro magic), behind]
  cases m with
  | zero => rfl
  | succ m =>
    have proper : (frameBody crc32 entry).take m ≠ frameBody crc32 entry := by
      intro whole
      have same := congrArg List.length whole
      simp only [frameOf, logicalWalSpoolMagic, length_append, length_cons, length_nil] at cut
      rw [length_take] at same
      omega
    obtain ⟨s, failed⟩ := (reads_frameBody stored []).cut _ ( take_prefix m _) proper
    simp only [take_succ_cons, if_true, readBody, failed]

end

end

def framesOf (crc32 : Bytes → UInt32) (entries : List LogicalWalEntry) : Bytes := entries.flatMap (frameOf crc32)

section

variable {crc32 : Bytes → UInt32} {entries : List LogicalWalEntry}

theorem framesOf_append (crc32 : Bytes → UInt32) (first second : List LogicalWalEntry) :
    framesOf crc32 (first ++ second) = framesOf crc32 first ++ framesOf crc32 second := flatMap_append

theorem framesOf_cons (crc32 : Bytes → UInt32) (entry : LogicalWalEntry) (entries : List LogicalWalEntry) :
    framesOf crc32 (entry :: entries) = frameOf crc32 entry ++ framesOf crc32 entries := flatMap_cons ..

theorem length_le_framesOf (crc32 : Bytes → UInt32) (entries : List LogicalWalEntry) :
    entries.length ≤ (framesOf crc32 entries).length := by
  induction entries with
  | nil => exact Nat.zero_le _
  | cons entry entries ih =>
    rw [framesOf_cons, length_append, length_cons, frameOf, length_append, length_cons]
    omega

section

variable (stored : ∀ entry ∈ entries, Stored entry) {tail : Bytes} {corrupt : Bool}
  (stops : ∀ fuel, scanLoop crc32 (fuel + 1) tail = ⟨[], tail, corrupt⟩)
include stored tail corrupt stops

theorem scanLoop_frames {fuel : Nat} (enough : entries.length < fuel) :
    scanLoop crc32 fuel (framesOf crc32 entries ++ tail) = ⟨entries, tail, corrupt⟩ := by
  induction entries generalizing fuel with
  | nil =>
    obtain ⟨fuel, rfl⟩ := exists_eq_succ_of_ne_zero (Nat.ne_of_gt enough)
    exact stops fuel
  | cons entry entries ih =>
    obtain ⟨fuel, rfl⟩ := exists_eq_succ_of_ne_zero (Nat.ne_of_gt (zero_lt_of_lt enough))
    have rest := ih (fun e member => stored e (mem_cons_of_mem _ member)) (lt_of_succ_lt_succ enough)
    rw [framesOf_cons, append_assoc, scanLoop, readFrame_frameOf (stored entry (mem_cons_self ..))]
    simp only [rest]

theorem scan_frames : scan crc32 (framesOf crc32 entries ++ tail) = ⟨entries, tail, corrupt⟩ := by
  refine scanLoop_frames stored stops ?_
  have bound := length_le_framesOf crc32 entries
  rw [length_append]
  omega

end

theorem stops_nil (fuel : Nat) : scanLoop crc32 (fuel + 1) [] = ⟨[], [], false⟩ := rfl

theorem stops_corrupt {tail : Bytes} (corrupt : readFrame crc32 tail = .corrupt) (fuel : Nat) :
    scanLoop crc32 (fuel + 1) tail = ⟨[], tail, true⟩ := by
  rw [scanLoop, corrupt]

theorem readFrom_frames (stored : ∀ entry ∈ entries, Stored entry) {before after : List LogicalWalEntry}
    (split : entries = before ++ after) :
    readLogicalWalEntriesFrom crc32 (framesOf crc32 entries) (framesOf crc32 before).length = after := by
  have rest : ∀ entry ∈ after, Stored entry := fun entry member =>
    stored entry (split ▸ mem_append_right before member)
  have scanned : scan crc32 (framesOf crc32 after ++ []) = ⟨after, [], false⟩ := scan_frames rest stops_nil
  rw [append_nil] at scanned
  rw [readLogicalWalEntriesFrom, split, framesOf_append, drop_left, scanned]

theorem readAndRepair_frames (stored : ∀ entry ∈ entries, Stored entry) {tail : Bytes}
    (broken : tail = [] ∨ readFrame crc32 tail = .corrupt) :
    readAndRepairLogicalWalEntries crc32 (framesOf crc32 entries ++ tail) = (entries, framesOf crc32 entries) := by
  rcases broken with rfl | corrupt
  · rw [readAndRepairLogicalWalEntries, scan_frames stored stops_nil]
    simp
  · have some : tail ≠ [] := by
      rintro rfl
      cases corrupt
    have length : (framesOf crc32 entries ++ tail).length - tail.length = (framesOf crc32 entries).length := by
      rw [length_append, Nat.add_sub_cancel]
    have shorter : (framesOf crc32 entries).length < (framesOf crc32 entries ++ tail).length := by
      rw [length_append]
      exact Nat.lt_add_of_pos_right (length_pos_iff.mpr some)
    rw [readAndRepairLogicalWalEntries, scan_frames stored (stops_corrupt corrupt)]
    simp only [length, shorter, and_self, if_true, take_left]

end

end RedDB.Replication
