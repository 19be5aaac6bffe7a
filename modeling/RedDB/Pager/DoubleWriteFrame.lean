import RedDB.Pager.DoubleWrite

namespace RedDB.Pager

open List Library FileImage

def dwbZoneEnd : Nat := dwbZoneOffset + dwbZoneBytes

def zone (file : FileImage) : Bytes := file.read dwbZoneOffset dwbZoneBytes

def staged (crc32 : Bytes → UInt32) (file : FileImage) : Option (List PagedDwbEntry) :=
  (decodePagedDwbFrame crc32 (zone file)).toOption

section

variable {crc32 : Bytes → UInt32}

theorem length_encodeEntry (entry : PagedDwbEntry) : (encodeEntry entry).length = pagedDwbEntrySize := by
  rw [encodeEntry, length_append, length_toLeBytes, entry.page.2]
  rfl

section

variable (pages : List PagedDwbEntry)

theorem length_encodeEntries :
    (pages.flatMap encodeEntry).length = pages.length * pagedDwbEntrySize := by
  induction pages with
  | nil => simp
  | cons entry pages ih =>
    rw [flatMap_cons, length_append, length_encodeEntry, ih, length_cons, Nat.succ_mul, add_comm]

theorem length_encodePagedDwbFrame :
    (encodePagedDwbFrame crc32 pages).length = pagedDwbHeaderSize + pages.length * pagedDwbEntrySize := by
  simp only [encodePagedDwbFrame, length_append, length_toLeBytes, length_encodeEntries]
  rfl

theorem pageFromSlice_eq (page : PageImage) : pageFromSlice page.1 = page := Subtype.ext (take_left' page.2)

theorem decodeEntries_encode (rest : Bytes) :
    decodeEntries pages.length (pages.flatMap encodeEntry ++ rest) = pages := by
  induction pages with
  | nil => rfl
  | cons entry pages ih =>
    have small : entry.pageId.toNat < 256 ^ 4 := entry.pageId.toNat_lt
    have width : (toLeBytes 4 entry.pageId.toNat).length = pagedDwbEntryHeaderSize := length_toLeBytes 4 _
    have number : (encodeEntry entry ++ (pages.flatMap encodeEntry ++ rest)).take pagedDwbEntryHeaderSize =
        toLeBytes 4 entry.pageId.toNat := by
      rw [encodeEntry, append_assoc, take_left' width]
    have data : slice (encodeEntry entry ++ (pages.flatMap encodeEntry ++ rest)) pagedDwbEntryHeaderSize pageSize =
        entry.page.1 := by
      rw [encodeEntry, append_assoc, slice_skip (le_of_eq width), width, Nat.sub_self, slice_front entry.page.2]
    rw [flatMap_cons, append_assoc, length_cons, decodeEntries, number, data,
      drop_left' (length_encodeEntry entry), ih, pageFromSlice_eq, fromLeBytes_toLeBytes small, UInt32.ofNat_toNat]

end

theorem decode_encode {pages : List PagedDwbEntry} (few : pages.length < 256 ^ 4) (rest : Bytes) :
    decodePagedDwbFrame crc32 (encodePagedDwbFrame crc32 pages ++ rest) = .ok pages := by
  let entries := pages.flatMap encodeEntry
  let count := toLeBytes 4 pages.length
  let checksum := toLeBytes 4 (crc32 entries).toNat
  have checksumSmall : (crc32 entries).toNat < 256 ^ 4 := (crc32 entries).toNat_lt
  have header : (dwbMagic ++ count ++ checksum).length = pagedDwbHeaderSize := by
    simp only [length_append, count, checksum, length_toLeBytes]
    rfl
  have front : (dwbMagic ++ count).length = 8 := by
    simp only [length_append, count, length_toLeBytes]
    rfl
  have bytes : encodePagedDwbFrame crc32 pages ++ rest = dwbMagic ++ count ++ checksum ++ (entries ++ rest) :=
    append_assoc _ _ _
  have magic : (dwbMagic ++ count ++ checksum ++ (entries ++ rest)).take 4 = dwbMagic := by
    rw [append_assoc, append_assoc]
    exact take_left' rfl
  have countField : slice (dwbMagic ++ count ++ checksum ++ (entries ++ rest)) 4 4 = count := by
    rw [append_assoc, append_assoc, slice_skip (Nat.le_refl 4)]
    exact slice_front (length_toLeBytes 4 _)
  have checksumField : slice (dwbMagic ++ count ++ checksum ++ (entries ++ rest)) 8 4 = checksum := by
    rw [append_assoc, slice_skip (le_of_eq front), front]
    exact slice_front (length_toLeBytes 4 _)
  have covered : slice (dwbMagic ++ count ++ checksum ++ (entries ++ rest)) pagedDwbHeaderSize
      (pages.length * pagedDwbEntrySize) = entries := by
    rw [slice_skip (le_of_eq header), header, Nat.sub_self, slice_front (length_encodeEntries pages)]
  have total : pagedDwbHeaderSize + pages.length * pagedDwbEntrySize ≤
      (dwbMagic ++ count ++ checksum ++ (entries ++ rest)).length := by
    rw [length_append, header, length_append, length_encodeEntries]
    omega
  rw [bytes, decodePagedDwbFrame, if_neg (not_lt.mpr (le_trans (Nat.le_add_right _ _) total)),
    if_neg (not_not_intro magic)]
  simp only [countField, checksumField, count, checksum, fromLeBytes_toLeBytes few, fromLeBytes_toLeBytes checksumSmall,
    Nat.add_sub_cancel_left]
  rw [if_neg (not_lt.mpr total), covered, if_neg (not_not_intro rfl), drop_left' header, decodeEntries_encode]

end

section

variable {crc32 : Bytes → UInt32} {f : FileImage}

theorem dwbMaxPagesPerFrame_eq : max dwbMaxPagesPerFrame 1 = 63 := by decide

section

variable {chunk : List PagedDwbEntry} (few : chunk.length ≤ 63)
include chunk few

theorem length_frame_le : (encodePagedDwbFrame crc32 chunk).length ≤ dwbZoneBytes := by
  rw [length_encodePagedDwbFrame]
  exact le_trans (Nat.add_le_add_left (Nat.mul_le_mul_right _ few) _) (by decide)

theorem staged_write_frame : staged crc32 (f.write dwbZoneOffset (encodePagedDwbFrame crc32 chunk)) = some chunk := by
  have fits : (encodePagedDwbFrame crc32 chunk).length ≤ dwbZoneBytes := length_frame_le few
  have small : chunk.length < 256 ^ 4 := lt_of_le_of_lt few (by decide)
  have split : dwbZoneBytes = (encodePagedDwbFrame crc32 chunk).length +
      (dwbZoneBytes - (encodePagedDwbFrame crc32 chunk).length) := by omega
  rw [staged, zone, split, read_add, read_write f _ rfl, decode_encode small]
  rfl

end

theorem staged_congr {g : FileImage} (same : zone f = zone g) : staged crc32 f = staged crc32 g := by
  rw [staged, staged, same]

theorem decode_of_magic {bytes : Bytes} (other : bytes.take 4 ≠ dwbMagic) :
    (decodePagedDwbFrame crc32 bytes).toOption = none := by
  rw [decodePagedDwbFrame]
  split_ifs
  · rfl
  · rfl

theorem head_clear (pageId : Nat) :
    ((updateChecksum crc32 (newPage .header pageId)).1).getD 0 0 = pageTypeByte .header := by
  simp [updateChecksum, setPagedPageChecksum, splice, newPage, encodePagedPageHeader]

theorem clearWrites_cons (crc32 : Bytes → UInt32) : ∃ rest, clearWrites crc32 =
    writePage dwbZoneStartPage (updateChecksum crc32 (newPage .header dwbZoneStartPage)) :: rest ∧
      ∀ w ∈ rest, dwbZoneOffset < w.offset := by
  refine ⟨(List.range' (dwbZoneStartPage + 1) 63).map fun pageId =>
    writePage pageId (updateChecksum crc32 (newPage .header pageId)), rfl, fun w member => ?_⟩
  obtain ⟨pageId, range, rfl⟩ := mem_map.mp member
  have bounds := mem_range'_1.mp range
  simp only [writePage, dwbZoneOffset, dwbZoneStartPage, pageSize] at bounds ⊢
  omega

theorem staged_clear {n : Nat} (some : n ≠ 0) : staged crc32 (f.writeAll ((clearWrites crc32).take n)) = none := by
  obtain ⟨rest, clear, later⟩ := clearWrites_cons crc32
  obtain ⟨m, rfl⟩ := Nat.exists_eq_succ_of_ne_zero some
  have first : (f.writeAll ((clearWrites crc32).take (m + 1))).byte dwbZoneOffset = 6 := by
    rw [clear, take_succ_cons, writeAll_cons, byte_writeAll_of_not_covers]
    · rw [byte_write_of_covers]
      · rw [DiskWrite.byte, writePage, dwbZoneOffset, Nat.sub_self]
        exact head_clear dwbZoneStartPage
      · refine ⟨le_rfl, ?_⟩
        refine Nat.lt_add_of_pos_right ?_
        rw [writePage, (updateChecksum crc32 (newPage .header dwbZoneStartPage)).2]
        decide
    · intro w member covers
      exact absurd covers.1 (not_le.mpr (later w (mem_of_mem_take member)))
  refine decode_of_magic fun magic => ?_
  have head : (zone (f.writeAll ((clearWrites crc32).take (m + 1)))).head? = dwbMagic.head? := by
    rw [← magic, head?_take, if_neg (by decide)]
  rw [zone, FileImage.head?_read _ _ (by decide), first] at head
  exact absurd (Option.some.inj head) (by decide)

end

end RedDB.Pager
