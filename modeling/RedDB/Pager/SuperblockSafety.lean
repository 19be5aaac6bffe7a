import RedDB.Pager.Superblock
import RedDB.Wal.Record

namespace RedDB.Pager

open List Library FileImage

section

variable {crc32 : Bytes → UInt32}

section

variable (image : Bytes)

def upToVersion : Bytes := image ++ pagedSuperblockMagic

def upToCopy : Bytes := upToVersion image ++ toLeBytes 4 pagedSuperblockSlotVersion

def upToGeneration (copyIndex : Nat) : Bytes := upToCopy image ++ toLeBytes 4 copyIndex

def upToChecksum (copyIndex generation : Nat) : Bytes :=
  upToGeneration image copyIndex ++ toLeBytes 8 generation

end

def sealedSlot (crc32 : Bytes → UInt32) (image : Bytes) (copyIndex generation : Nat) : Bytes :=
  upToChecksum image copyIndex generation ++
    (toLeBytes 4 (crc32 (upToChecksum image copyIndex generation)).toNat ++ toLeBytes 4 0)

section

variable {image : Bytes} (size : image.length = pagedSuperblockTrailerOffset)
include size

theorem length_upToVersion : (upToVersion image).length = pagedSuperblockVersionOffset := by
  rw [upToVersion, length_append, size]
  rfl

theorem length_upToCopy : (upToCopy image).length = pagedSuperblockCopyOffset := by
  rw [upToCopy, length_append, length_upToVersion size]
  rfl

theorem length_upToGeneration (copyIndex : Nat) :
    (upToGeneration image copyIndex).length = pagedSuperblockGenerationOffset := by
  rw [upToGeneration, length_append, length_upToCopy size]
  rfl

variable (copyIndex generation : Nat)

theorem length_upToChecksum :
    (upToChecksum image copyIndex generation).length = pagedSuperblockCrcOffset := by
  rw [upToChecksum, length_append, length_upToGeneration size]
  rfl

theorem length_sealedSlot :
    (sealedSlot crc32 image copyIndex generation).length = pagedSuperblockSlotSize := by
  rw [sealedSlot, length_append, length_upToChecksum size]
  rfl

end

variable {width offset : Nat} {bytes : Bytes}

theorem ensureLen_ok {need : Nat} (enough : need ≤ bytes.length) : ensureLen bytes need = .ok () :=
  if_neg (not_lt.mpr enough)

theorem length_fields (first field last : Bytes) :
    first.length + field.length ≤ (first ++ (field ++ last)).length := by
  simp only [length_append]
  omega

theorem writeUint_field (first old last : Bytes) (value : Nat) (at' : first.length = offset)
    (size : old.length = width) :
    writeUint width (first ++ (old ++ last)) offset value = .ok (first ++ (toLeBytes width value ++ last)) := by
  have replaced : splice (first ++ (old ++ last)) offset (toLeBytes width value) =
      first ++ (toLeBytes width value ++ last) := by
    rw [splice_skip (le_of_eq at'), at', Nat.sub_self, splice_front (by rw [length_toLeBytes, size])]
  rw [writeUint, ensureLen_ok (by rw [← at', ← size]; exact length_fields first old last), replaced]
  rfl

theorem readUint_field (first field last : Bytes) (at' : first.length = offset)
    (size : field.length = width) :
    (readUint width (first ++ (field ++ last)) offset).toOption = some (fromLeBytes field) := by
  rw [readUint, ensureLen_ok (by rw [← at', ← size]; exact length_fields first field last),
    slice_skip (le_of_eq at'), at', Nat.sub_self, slice_front size]
  rfl

theorem split_field {n m : Nat} (size : bytes.length = n + m) :
    ∃ field rest : Bytes, bytes = field ++ rest ∧ field.length = n ∧ rest.length = m :=
  ⟨bytes.take n, bytes.drop n, (take_append_drop n bytes).symm, by simp [size], by simp [size]⟩

variable {copyIndex : Nat}

theorem seal_eq {slot : Bytes} (size : slot.length = pagedSuperblockSlotSize)
    (small : copyIndex < pagedSuperblockSlotCount) (generation : Nat) :
    sealPagedSuperblockSlot crc32 slot copyIndex generation =
      .ok (sealedSlot crc32 (slot.take pagedSuperblockTrailerOffset) copyIndex generation) := by
  have small : copyIndex < 2 ^ 32 := lt_of_lt_of_le small (by decide)
  have whole := ensureLen_ok (le_of_eq size.symm)
  obtain ⟨image, slot, rfl, sizeImage, size⟩ := split_field (n := pagedSuperblockTrailerOffset) (m := 32) size
  obtain ⟨magic, slot, rfl, sizeMagic, size⟩ := split_field (n := 8) (m := 24) size
  obtain ⟨version, slot, rfl, sizeVersion, size⟩ := split_field (n := 4) (m := 20) size
  obtain ⟨copy, slot, rfl, sizeCopy, size⟩ := split_field (n := 4) (m := 16) size
  obtain ⟨counter, slot, rfl, sizeCounter, size⟩ := split_field (n := 8) (m := 8) size
  obtain ⟨checksum, reserved, rfl, sizeChecksum, sizeReserved⟩ := split_field (n := 4) (m := 4) size
  have marked : splice (image ++ (magic ++ (version ++ (copy ++ (counter ++ (checksum ++ reserved))))))
      pagedSuperblockTrailerOffset pagedSuperblockMagic =
        image ++ (pagedSuperblockMagic ++ (version ++ (copy ++ (counter ++ (checksum ++ reserved))))) := by
    rw [splice_skip (le_of_eq sizeImage), sizeImage, Nat.sub_self, splice_front sizeMagic]
  let covered := upToChecksum image copyIndex generation
  have toReserved : (covered ++ toLeBytes 4 (crc32 covered).toNat).length = pagedSuperblockCrcOffset + 4 := by
    rw [length_append, length_upToChecksum sizeImage, length_toLeBytes]
  have versioned := writeUint_field (upToVersion image) version (copy ++ (counter ++ (checksum ++ reserved)))
    pagedSuperblockSlotVersion (length_upToVersion sizeImage) sizeVersion
  have copied := writeUint_field (upToCopy image) copy (counter ++ (checksum ++ reserved)) copyIndex
    (length_upToCopy sizeImage) sizeCopy
  have counted := writeUint_field (upToGeneration image copyIndex) counter (checksum ++ reserved) generation
    (length_upToGeneration sizeImage copyIndex) sizeCounter
  have summed := writeUint_field covered checksum reserved (crc32 covered).toNat
    (length_upToChecksum sizeImage copyIndex generation) sizeChecksum
  have closed := writeUint_field (covered ++ toLeBytes 4 (crc32 covered).toNat) reserved [] 0 toReserved sizeReserved
  have front : (covered ++ (checksum ++ reserved)).take pagedSuperblockCrcOffset = covered := by
    rw [← length_upToChecksum sizeImage copyIndex generation, take_left]
  have prefixed : (image ++ (magic ++ (version ++ (copy ++ (counter ++ (checksum ++ reserved)))))).take
      pagedSuperblockTrailerOffset = image := by
    rw [← sizeImage, take_left]
  rw [sealPagedSuperblockSlot, whole, marked, prefixed, if_pos small, ← append_assoc image]
  simp only [Bind.bind, Except.bind]
  rw [← upToVersion, versioned, ← append_assoc]
  simp only
  rw [← upToCopy, copied, ← append_assoc]
  simp only
  rw [← upToGeneration, counted, ← append_assoc]
  simp only
  rw [← upToChecksum, front, summed, ← append_assoc, ← append_nil reserved]
  simp only
  rw [closed, append_nil, append_assoc]
  rfl

theorem generation_le {slot : Bytes} {x : Nat}
    (decodes : pagedSuperblockSlotGeneration crc32 slot copyIndex = some x) : x ≤ maxGeneration := by
  unfold pagedSuperblockSlotGeneration at decodes
  split_ifs at decodes
  unfold readUint ensureLen at decodes
  split_ifs at decodes
  · cases decodes
  · cases decodes
    have bound := fromLeBytes_lt (slice slot pagedSuperblockGenerationOffset 8)
    have width : (slice slot pagedSuperblockGenerationOffset 8).length ≤ 8 := length_take_le _ _
    exact Nat.le_of_lt_succ (lt_of_lt_of_le bound (Nat.pow_le_pow_right (by decide) width))

theorem generation_sealedSlot {image : Bytes} (size : image.length = pagedSuperblockTrailerOffset)
    {generation : Nat} (copy : copyIndex < pagedSuperblockSlotCount) (counter : generation ≤ maxGeneration) :
    pagedSuperblockSlotGeneration crc32 (sealedSlot crc32 image copyIndex generation) copyIndex =
      some generation := by
  have small : copyIndex < 256 ^ 4 := lt_of_lt_of_le copy (by decide)
  have wide : generation < 256 ^ 8 := lt_of_le_of_lt counter (by decide)
  let covered := upToChecksum image copyIndex generation
  have checksumSmall : (crc32 covered).toNat < 256 ^ 4 := (crc32 covered).toNat_lt
  let checksum := toLeBytes 4 (crc32 covered).toNat ++ toLeBytes 4 0
  have atGeneration : sealedSlot crc32 image copyIndex generation =
      upToGeneration image copyIndex ++ (toLeBytes 8 generation ++ checksum) := append_assoc _ _ _
  have atCopy : sealedSlot crc32 image copyIndex generation =
      upToCopy image ++ (toLeBytes 4 copyIndex ++ (toLeBytes 8 generation ++ checksum)) :=
    atGeneration.trans (append_assoc _ _ _)
  have atVersion : sealedSlot crc32 image copyIndex generation =
      upToVersion image ++ (toLeBytes 4 pagedSuperblockSlotVersion ++
        (toLeBytes 4 copyIndex ++ (toLeBytes 8 generation ++ checksum))) :=
    atCopy.trans (append_assoc _ _ _)
  have atMagic : sealedSlot crc32 image copyIndex generation = image ++ (pagedSuperblockMagic ++
      (toLeBytes 4 pagedSuperblockSlotVersion ++ (toLeBytes 4 copyIndex ++ (toLeBytes 8 generation ++ checksum)))) :=
    atVersion.trans (append_assoc _ _ _)
  unfold pagedSuperblockSlotGeneration
  rw [if_neg, if_neg, if_neg, if_neg, if_neg]
  · rw [atGeneration, readUint_field _ _ _ (length_upToGeneration size copyIndex) (length_toLeBytes 8 _),
      fromLeBytes_toLeBytes wide]
  · rw [sealedSlot, take_left' (length_upToChecksum size copyIndex generation),
      readUint_field _ _ _ (length_upToChecksum size copyIndex generation) (length_toLeBytes 4 _),
      fromLeBytes_toLeBytes checksumSmall]
    exact fun different => different rfl
  · rw [atCopy, readUint_field _ _ _ (length_upToCopy size) (length_toLeBytes 4 _), fromLeBytes_toLeBytes small]
    rintro (large | different)
    · exact absurd small (not_lt.mpr large)
    · exact different rfl
  · rw [atVersion, readUint_field _ _ _ (length_upToVersion size) (length_toLeBytes 4 _),
      fromLeBytes_toLeBytes (by decide)]
    exact fun different => different rfl
  · rw [atMagic, slice_skip (le_of_eq size), size, Nat.sub_self]
    exact fun different => different (slice_front rfl)
  · rw [length_sealedSlot size]
    exact lt_irrefl _

end

def slotAt (file : FileImage) (copyIndex : Nat) : Bytes :=
  file.read (copyIndex * pagedSuperblockSlotSize) pagedSuperblockSlotSize

section

variable {crc32 : Bytes → UInt32} {file : FileImage}

def generationAt (crc32 : Bytes → UInt32) (file : FileImage) (copyIndex : Nat) : Option Nat :=
  pagedSuperblockSlotGeneration crc32 (slotAt file copyIndex) copyIndex

section

variable (sized : pagedSuperblockZoneSize ≤ file.size)
include sized

theorem readSuperblockZone_eq : readSuperblockZone file = file.read 0 pagedSuperblockZoneSize := by
  rw [readSuperblockZone, min_eq_right sized, Nat.sub_self, replicate_zero, append_nil]

theorem slotImage_zone {copyIndex : Nat} (copy : copyIndex < pagedSuperblockSlotCount) :
    slotImage (readSuperblockZone file) copyIndex = slotAt file copyIndex := by
  rw [slotImage, readSuperblockZone_eq sized, slice_read, zero_add, slotAt]
  simp only [pagedSuperblockSlotCount, pagedSuperblockZoneSize, pagedSuperblockSlotSize] at copy ⊢
  omega

end

def selectGenerations : Option Nat → Option Nat → Option PagedSuperblockSelection
  | none, none => none
  | some a, none => some ⟨0, a⟩
  | none, some b => some ⟨1, b⟩
  | some a, some b => some (if a ≤ b then ⟨1, b⟩ else ⟨0, a⟩)

theorem select_eq (sized : pagedSuperblockZoneSize ≤ file.size) :
    selectPagedSuperblock crc32 (readSuperblockZone file) =
      selectGenerations (generationAt crc32 file 0) (generationAt crc32 file 1) := by
  have whole : (readSuperblockZone file).length = pagedSuperblockZoneSize := by
    rw [readSuperblockZone_eq sized, length_read]
  have first : slice (readSuperblockZone file) (0 * pagedSuperblockSlotSize) pagedSuperblockSlotSize = slotAt file 0 :=
    slotImage_zone sized (by decide)
  have second : slice (readSuperblockZone file) (1 * pagedSuperblockSlotSize) pagedSuperblockSlotSize = slotAt file 1 :=
    slotImage_zone sized (by decide)
  have range : List.range pagedSuperblockSlotCount = [0, 1] := rfl
  have fits : (0 * pagedSuperblockSlotSize + pagedSuperblockSlotSize ≤ pagedSuperblockZoneSize) ∧
      (1 * pagedSuperblockSlotSize + pagedSuperblockSlotSize ≤ pagedSuperblockZoneSize) := by decide
  simp only [selectPagedSuperblock, range, filterMap_cons, filterMap_nil, whole, fits, if_true, first, second,
    generationAt]
  cases pagedSuperblockSlotGeneration crc32 (slotAt file 0) 0 with
  | none => cases pagedSuperblockSlotGeneration crc32 (slotAt file 1) 1 <;> rfl
  | some a =>
    cases pagedSuperblockSlotGeneration crc32 (slotAt file 1) 1 with
    | none => rfl
    | some b => exact (apply_ite some (a ≤ b) _ _).symm

structure Newest (crc32 : Bytes → UInt32) (file : FileImage) (selection : PagedSuperblockSelection) : Prop where
  copy : selection.copyIndex < pagedSuperblockSlotCount
  found : generationAt crc32 file selection.copyIndex = some selection.generation
  newest : ∀ x, generationAt crc32 file (pagedSuperblockNextCopy (some selection)) = some x →
    x < selection.generation ∨ x = selection.generation ∧ selection.copyIndex = 1

theorem nextCopy_zero (generation : Nat) : pagedSuperblockNextCopy (some ⟨0, generation⟩) = 1 := rfl

theorem nextCopy_one (generation : Nat) : pagedSuperblockNextCopy (some ⟨1, generation⟩) = 0 := by
  simp [pagedSuperblockNextCopy, pagedSuperblockSlotCount]

variable {selection : PagedSuperblockSelection}

theorem selectGenerations_iff :
    selectGenerations (generationAt crc32 file 0) (generationAt crc32 file 1) = some selection ↔
      Newest crc32 file selection := by
  constructor
  · intro picked
    cases first : generationAt crc32 file 0 with
    | none =>
      cases second : generationAt crc32 file 1 with
      | none => simp [first, second, selectGenerations] at picked
      | some b =>
        rw [first, second] at picked
        cases picked
        refine ⟨one_lt_two, second, fun x other => ?_⟩
        rw [nextCopy_one, first] at other
        cases other
    | some a =>
      cases second : generationAt crc32 file 1 with
      | none =>
        rw [first, second] at picked
        cases picked
        refine ⟨two_pos, first, fun x other => ?_⟩
        rw [nextCopy_zero, second] at other
        cases other
      | some b =>
        rw [first, second, selectGenerations, Option.some.injEq] at picked
        split_ifs at picked with newer
        · cases picked
          refine ⟨one_lt_two, second, fun x other => ?_⟩
          rw [nextCopy_one, first] at other
          cases other
          exact (lt_or_eq_of_le newer).imp_right fun same => ⟨same, rfl⟩
        · cases picked
          refine ⟨two_pos, first, fun x other => ?_⟩
          rw [nextCopy_zero, second] at other
          cases other
          exact .inl (Nat.lt_of_not_le newer)
  · obtain ⟨copyIndex, generation⟩ := selection
    rintro ⟨copy, found, newest⟩
    have either : copyIndex = 0 ∨ copyIndex = 1 := by
      change copyIndex < 2 at copy
      omega
    rcases either with rfl | rfl
    · rw [nextCopy_zero] at newest
      dsimp only at found newest
      rw [found]
      cases second : generationAt crc32 file 1 with
      | none => rfl
      | some b =>
        have older : b < generation := (newest b second).resolve_right fun tie => absurd tie.2 (by decide)
        simp [selectGenerations, not_le.mpr older]
    · rw [nextCopy_one] at newest
      dsimp only at found newest
      rw [found]
      cases first : generationAt crc32 file 0 with
      | none => rfl
      | some a =>
        have older : a ≤ generation := (newest a first).elim le_of_lt fun tie => le_of_eq tie.1
        simp [selectGenerations, older]

theorem newestSuperblock_eq (sized : pagedSuperblockZoneSize ≤ file.size)
    {image : Bytes} : newestSuperblock crc32 file = .ok (selection, image) ↔
      Newest crc32 file selection ∧ image = slotAt file selection.copyIndex := by
  rw [← selectGenerations_iff, newestSuperblock, select_eq sized]
  cases selected : selectGenerations (generationAt crc32 file 0) (generationAt crc32 file 1) with
  | none => simp
  | some other =>
    simp only [Except.ok.injEq, Prod.mk.injEq, Option.some.injEq]
    refine and_congr_right fun same => ?_
    subst same
    rw [slotImage_zone sized (selectGenerations_iff.mp selected).copy]
    exact eq_comm

theorem Newest.unique {first second : PagedSuperblockSelection} (one : Newest crc32 file first)
    (two : Newest crc32 file second) : first = second :=
  Option.some.inj ((selectGenerations_iff.mpr one).symm.trans (selectGenerations_iff.mpr two))

theorem slotAt_write {copyIndex other : Nat} (copy : copyIndex < pagedSuperblockSlotCount) {bytes : Bytes}
    (size : bytes.length = pagedSuperblockSlotSize) :
    slotAt (file.write (pagedSuperblockSlotOffset copyIndex) bytes) other =
      if other = copyIndex then bytes else slotAt file other := by
  rw [pagedSuperblockSlotOffset, Nat.mod_eq_of_lt copy]
  split_ifs with same
  · rw [same]
    exact read_write file _ size
  · refine read_write_of_disjoint file ?_
    simp only [pagedSuperblockSlotCount, pagedSuperblockSlotSize] at copy size ⊢
    omega

theorem sized_write (sized : pagedSuperblockZoneSize ≤ file.size) (offset : Nat) (bytes : Bytes) :
    pagedSuperblockZoneSize ≤ (file.write offset bytes).size := by
  simp only [FileImage.write]
  split_ifs
  · exact sized
  · exact le_trans sized (le_max_left _ _)

theorem Newest.next_lt :
    pagedSuperblockNextCopy (some selection) < pagedSuperblockSlotCount := Nat.mod_lt _ (by decide)

theorem Newest.next_ne (newest : Newest crc32 file selection) :
    selection.copyIndex ≠ pagedSuperblockNextCopy (some selection) := by
  have copy := newest.copy
  simp only [pagedSuperblockNextCopy, pagedSuperblockSlotCount] at copy ⊢
  omega

theorem Newest.next_next (newest : Newest crc32 file selection) (x : Nat) :
    pagedSuperblockNextCopy (some ⟨pagedSuperblockNextCopy (some selection), x⟩) = selection.copyIndex := by
  have copy := newest.copy
  simp only [pagedSuperblockNextCopy, pagedSuperblockSlotCount] at copy ⊢
  omega

section

variable {selection : PagedSuperblockSelection} {bytes : Bytes}

theorem Newest.slot_kept (newest : Newest crc32 file selection) (size : bytes.length = pagedSuperblockSlotSize) :
    slotAt (file.write (pagedSuperblockSlotOffset (pagedSuperblockNextCopy (some selection))) bytes)
      selection.copyIndex = slotAt file selection.copyIndex := by
  rw [slotAt_write Newest.next_lt size, if_neg newest.next_ne]

theorem Newest.slot_written (size : bytes.length = pagedSuperblockSlotSize) :
    slotAt (file.write (pagedSuperblockSlotOffset (pagedSuperblockNextCopy (some selection))) bytes)
      (pagedSuperblockNextCopy (some selection)) = bytes := by
  rw [slotAt_write Newest.next_lt size, if_pos rfl]

theorem Newest.keep (newest : Newest crc32 file selection) (size : bytes.length = pagedSuperblockSlotSize)
    (older : ∀ x, pagedSuperblockSlotGeneration crc32 bytes (pagedSuperblockNextCopy (some selection)) = some x →
      x < selection.generation ∨ x = selection.generation ∧ selection.copyIndex = 1) :
    Newest crc32 (file.write (pagedSuperblockSlotOffset (pagedSuperblockNextCopy (some selection))) bytes) selection := by
  refine ⟨newest.copy, ?_, ?_⟩
  · rw [generationAt, newest.slot_kept size]
    exact newest.found
  · rw [generationAt, Newest.slot_written size]
    exact older

theorem Newest.overtake (newest : Newest crc32 file selection) (size : bytes.length = pagedSuperblockSlotSize) {x : Nat}
    (decodes : pagedSuperblockSlotGeneration crc32 bytes (pagedSuperblockNextCopy (some selection)) = some x)
    (newer : selection.generation < x ∨ selection.generation = x ∧ pagedSuperblockNextCopy (some selection) = 1) :
    Newest crc32 (file.write (pagedSuperblockSlotOffset (pagedSuperblockNextCopy (some selection))) bytes)
      ⟨pagedSuperblockNextCopy (some selection), x⟩ := by
  refine ⟨Newest.next_lt, ?_, ?_⟩
  · rw [generationAt, Newest.slot_written size]
    exact decodes
  · rw [newest.next_next, generationAt, newest.slot_kept size]
    intro y other
    rw [← generationAt, newest.found] at other
    cases other
    exact newer

end

end

namespace SuperblockStore

variable {crc32 : Bytes → UInt32}

/-- The checksum rejects a torn slot: what a crash leaves in the slot being written does not decode, unless
    it is the whole new slot or the whole old one. -/
def TornRejected (crc32 : Bytes → UInt32) (s : SuperblockStore) : SuperblockEvent → Prop
  | .crash torn => ∀ write ∈ s.writing, torn.length = pagedSuperblockSlotSize ∧
    (pagedSuperblockSlotGeneration crc32 torn write.copyIndex = none ∨ torn = write.bytes ∨
      torn = slotAt s.file write.copyIndex)
  | _ => True

/-- The selection is that of a slot write. Once the counter is saturated only the generation tells. -/
structure Matches (file : FileImage) (selection : PagedSuperblockSelection) (write : SlotWrite) : Prop where
  generation : selection.generation = write.generation
  slot : write.generation < maxGeneration →
    selection.copyIndex = write.copyIndex ∧ slotAt file selection.copyIndex = write.bytes

structure Inv (crc32 : Bytes → UInt32) (s : SuperblockStore) : Prop where
  absent : s.lifecycle = .absent → s.writing = none ∧ s.completed = none ∧ s.file = .empty
  sized : s.lifecycle ≠ .absent → pagedSuperblockZoneSize ≤ s.file.size
  creating : ∀ copyIndex, s.lifecycle = .creating copyIndex →
    copyIndex = 0 ∧ s.completed = none ∨ copyIndex = 1 ∧ s.completed ≠ none ∧ Newest crc32 s.file ⟨0, 1⟩
  unmarked : s.lifecycle ≠ .absent → s.completed = none → generationAt crc32 s.file 1 = none
  opened : s.lifecycle = .opened → s.completed ≠ none
  interrupted : s.interrupted ≠ none → s.lifecycle = .closed
  closed : s.lifecycle = .closed → s.writing = none
  selected : ∀ w ∈ s.completed, ∃ selection, Newest crc32 s.file selection ∧ w.generation ≤ selection.generation ∧
      (Matches s.file selection w ∨ ∃ v ∈ s.interrupted, Matches s.file selection v)
  writing : ∀ v ∈ s.writing, v.bytes.length = pagedSuperblockSlotSize ∧
    pagedSuperblockSlotGeneration crc32 v.bytes v.copyIndex = some v.generation ∧
      (s.lifecycle = .creating 0 ∧ v.copyIndex = 0 ∧ v.generation = 1 ∨ s.lifecycle ≠ .creating 0 ∧
        ∃ selection, Newest crc32 s.file selection ∧ v.copyIndex = pagedSuperblockNextCopy (some selection) ∧
          v.generation = min (selection.generation + 1) maxGeneration)

theorem Inv.init : Inv crc32 .init where
  absent := fun _ => ⟨rfl, rfl, rfl⟩
  sized := fun created => absurd rfl created
  creating := fun _ none => by cases none
  unmarked := fun created => absurd rfl created
  opened := fun none => by cases none
  interrupted := fun none => absurd rfl none
  closed := fun none => by cases none
  selected := fun _ none => by cases none
  writing := fun _ none => by cases none

section

variable {s t : SuperblockStore} {file : FileImage}

variable {selection : PagedSuperblockSelection} {v : SlotWrite}

theorem landed (newest : Newest crc32 file selection) (size : v.bytes.length = pagedSuperblockSlotSize)
    (decodes : pagedSuperblockSlotGeneration crc32 v.bytes v.copyIndex = some v.generation)
    (copy : v.copyIndex = pagedSuperblockNextCopy (some selection))
    (counter : v.generation = min (selection.generation + 1) maxGeneration) :
    ∃ chosen, Newest crc32 (file.write (pagedSuperblockSlotOffset v.copyIndex) v.bytes) chosen ∧
      Matches (file.write (pagedSuperblockSlotOffset v.copyIndex) v.bytes) chosen v ∧
      selection.generation ≤ chosen.generation := by
  have bound := generation_le newest.found
  rw [copy] at decodes ⊢
  by_cases saturated : selection.generation = maxGeneration
  · have same : v.generation = selection.generation := by omega
    by_cases tie : selection.copyIndex = 1
    · refine ⟨selection, newest.keep size fun x found => ?_, ⟨same.symm, fun small => ?_⟩, le_rfl⟩
      · rw [decodes] at found
        cases found
        exact .inr ⟨same, tie⟩
      · omega
    · have next : pagedSuperblockNextCopy (some selection) = 1 := by
        have small := newest.copy
        simp only [pagedSuperblockNextCopy, pagedSuperblockSlotCount] at small ⊢
        omega
      refine ⟨_, newest.overtake size decodes (.inr ⟨same.symm, next⟩), ⟨rfl, fun small => ?_⟩, le_of_eq same.symm⟩
      omega
  · have newer : selection.generation < v.generation := by omega
    refine ⟨_, newest.overtake size decodes (.inl newer), ⟨rfl, fun _ => ⟨copy.symm, ?_⟩⟩, le_of_lt newer⟩
    exact Newest.slot_written size

theorem Matches.kept {w : SlotWrite} (matched : Matches file selection w)
    (newest : Newest crc32 file selection) {bytes : Bytes} (size : bytes.length = pagedSuperblockSlotSize) :
    Matches (file.write (pagedSuperblockSlotOffset (pagedSuperblockNextCopy (some selection))) bytes) selection w := by
  refine ⟨matched.generation, fun small => ?_⟩
  rw [newest.slot_kept size]
  exact matched.slot small

theorem Inv.current (inv : Inv crc32 s) (running : s.lifecycle ≠ .closed) {w : SlotWrite} (completed : w ∈ s.completed)
    (newest : Newest crc32 s.file selection) : Matches s.file selection w := by
  obtain ⟨other, found, -, matched | ⟨v, cut, -⟩⟩ := inv.selected w completed
  · rwa [newest.unique found]
  · rw [Option.mem_def] at cut
    exact absurd (inv.interrupted (by simp [cut])) running

theorem generation_zeros (copyIndex : Nat) :
    pagedSuperblockSlotGeneration crc32 (List.replicate pagedSuperblockSlotSize 0) copyIndex = none := by
  have magic : slice (List.replicate pagedSuperblockSlotSize (0 : UInt8)) pagedSuperblockTrailerOffset 8 ≠
      pagedSuperblockMagic := by
    rw [slice, drop_replicate, take_replicate]
    decide
  rw [pagedSuperblockSlotGeneration, length_replicate, if_neg (lt_irrefl _), if_pos magic]

theorem slotAt_created {header : Bytes} (short : header.length ≤ pagedSuperblockTrailerOffset) :
    slotAt (FileImage.empty.write 0 (header ++ List.replicate (pageSize - header.length) 0)) 1 =
      List.replicate pagedSuperblockSlotSize 0 := by
  have inside : pagedSuperblockSlotSize + pagedSuperblockSlotSize ≤
      (header ++ List.replicate (pageSize - header.length) (0 : UInt8)).length := by
    simp only [length_append, length_replicate, pagedSuperblockTrailerOffset, pagedSuperblockSlotSize,
      pageSize] at short ⊢
    omega
  have start : 1 * pagedSuperblockSlotSize = 0 + pagedSuperblockSlotSize := by decide
  have behind : header.length ≤ pagedSuperblockSlotSize := le_trans short (by decide)
  rw [slotAt, start, read_write_inside _ _ inside, slice_skip behind, slice, drop_replicate, take_replicate]
  congr 1
  simp only [pagedSuperblockTrailerOffset, pagedSuperblockSlotSize, pageSize] at short ⊢
  omega

theorem Inv.create_step (inv : Inv crc32 s) {header : Bytes} (taken : s.step crc32 (.create header) = some t) :
    Inv crc32 t := by
  simp only [step] at taken
  split_ifs at taken with allowed
  obtain ⟨absent, short⟩ := allowed
  obtain ⟨idle, fresh, file⟩ := inv.absent absent
  cases taken
  refine ⟨fun none => ?_, fun _ => ?_, fun copyIndex at' => ?_, fun _ _ => ?_, fun none => ?_, fun cut => ?_,
    fun none => ?_, fun w done => ?_, fun v pending => ?_⟩
  · cases none
  · simp only [FileImage.write, pagedSuperblockZoneSize, pagedSuperblockSlotSize, pagedSuperblockSlotCount]
    rw [if_neg, length_append, length_replicate]
    · simp only [pagedSuperblockTrailerOffset, pagedSuperblockSlotSize, pageSize] at short ⊢
      omega
    · intro empty
      have none := congrArg List.length empty
      simp only [length_append, length_replicate, length_nil, pagedSuperblockTrailerOffset,
        pagedSuperblockSlotSize, pageSize] at none short
      omega
  · cases at'
    exact .inl ⟨rfl, fresh⟩
  · rw [generationAt, file, slotAt_created short]
    exact generation_zeros 1
  · cases none
  · have closed := inv.interrupted cut
    rw [absent] at closed
    cases closed
  · cases none
  · rw [fresh] at done
    cases done
  · rw [idle] at pending
    cases pending

theorem writeSuperblockSlot_ok {image : Bytes} (size : image.length = pagedSuperblockSlotSize)
    {copyIndex generation : Nat} (copy : copyIndex < pagedSuperblockSlotCount) (counter : generation ≤ maxGeneration)
    (sealed : writeSuperblockSlot crc32 image copyIndex generation = .ok v) :
    v.copyIndex = copyIndex ∧ v.generation = generation ∧ v.bytes.length = pagedSuperblockSlotSize ∧
      pagedSuperblockSlotGeneration crc32 v.bytes v.copyIndex = some v.generation := by
  have front : (image.take pagedSuperblockTrailerOffset).length = pagedSuperblockTrailerOffset := by
    rw [length_take, size]
    decide
  rw [writeSuperblockSlot, seal_eq size copy] at sealed
  cases sealed
  exact ⟨rfl, rfl, length_sealedSlot front _ _, generation_sealedSlot front copy counter⟩

theorem Inv.issue (inv : Inv crc32 s) (running : s.lifecycle ≠ .absent ∧ s.lifecycle ≠ .closed)
    (size : v.bytes.length = pagedSuperblockSlotSize)
    (decodes : pagedSuperblockSlotGeneration crc32 v.bytes v.copyIndex = some v.generation)
    (follows : s.lifecycle = .creating 0 ∧ v.copyIndex = 0 ∧ v.generation = 1 ∨ s.lifecycle ≠ .creating 0 ∧
      ∃ selection, Newest crc32 s.file selection ∧ v.copyIndex = pagedSuperblockNextCopy (some selection) ∧
        v.generation = min (selection.generation + 1) maxGeneration) :
    Inv crc32 { s with writing := some v } := by
  refine { inv with
    absent := fun absent => absurd absent running.1, closed := fun closed => absurd closed running.2
    writing := fun w pending => ?_ }
  cases pending
  exact ⟨size, decodes, follows⟩

theorem length_slotAt (file : FileImage) (copyIndex : Nat) : (slotAt file copyIndex).length = pagedSuperblockSlotSize :=
  length_read _ _ _

section

variable (inv : Inv crc32 s)
include inv

theorem Inv.initializeSlot_step (taken : s.step crc32 .initializeSlot = some t) : Inv crc32 t := by
  simp only [step] at taken
  split at taken
  · rename_i copyIndex creating idle
    have sized := inv.sized (by simp [creating])
    rw [slotImage_zone sized (by decide)] at taken
    split at taken
    · rename_i v sealed
      cases taken
      have running : s.lifecycle ≠ .absent ∧ s.lifecycle ≠ .closed := by simp [creating]
      rcases inv.creating copyIndex creating with ⟨rfl, -⟩ | ⟨rfl, -, newest⟩
      · obtain ⟨copy, counter, size, decodes⟩ :=
          writeSuperblockSlot_ok (length_slotAt s.file 0) (by decide) (by decide) sealed
        exact inv.issue running size decodes (.inl ⟨creating, copy, counter⟩)
      · obtain ⟨copy, counter, size, decodes⟩ :=
          writeSuperblockSlot_ok (length_slotAt s.file 0) (by decide) (by decide) sealed
        exact inv.issue running size decodes
          (.inr ⟨by simp [creating], _, newest, copy.trans (nextCopy_zero 1).symm, counter.trans (by decide)⟩)
    · cases taken
      exact inv
  · cases taken

theorem Inv.commit_step {mutate : Mutate} (taken : s.step crc32 (.commit mutate) = some t) : Inv crc32 t := by
  simp only [step] at taken
  split at taken
  · rename_i opened idle
    have sized := inv.sized (by simp [opened])
    split at taken
    · rename_i v committed
      cases taken
      obtain ⟨⟨selection, image⟩, found, committed⟩ := except_bind_ok committed
      obtain ⟨⟨edited, kept⟩, -, sealed⟩ := except_bind_ok committed
      obtain ⟨newest, same⟩ := (newestSuperblock_eq sized).mp found
      have size : edited.length = pagedSuperblockSlotSize := by
        rw [kept, same]
        exact length_slotAt _ _
      obtain ⟨copy, counter, size, decodes⟩ := writeSuperblockSlot_ok size Newest.next_lt (min_le_right _ _) sealed
      exact inv.issue (by simp [opened]) size decodes (.inr ⟨by simp [opened], _, newest, copy, counter⟩)
    · cases taken
      exact inv
  · cases taken

theorem Inv.newest_first (created : s.lifecycle = .creating 0) {bytes : Bytes}
    (size : bytes.length = pagedSuperblockSlotSize) {x : Nat}
    (decodes : pagedSuperblockSlotGeneration crc32 bytes 0 = some x) :
    Newest crc32 (s.file.write (pagedSuperblockSlotOffset 0) bytes) ⟨0, x⟩ := by
  have fresh : s.completed = none := by
    rcases inv.creating 0 created with ⟨-, fresh⟩ | ⟨other, -⟩
    · exact fresh
    · cases other
  refine ⟨two_pos, ?_, ?_⟩
  · rw [generationAt, slotAt_write two_pos size, if_pos rfl]
    exact decodes
  · rw [nextCopy_zero, generationAt, slotAt_write two_pos size, if_neg (by decide), ← generationAt,
      inv.unmarked (by simp [created]) fresh]
    intro y none
    cases none

theorem Inv.running (pending : s.writing = some v) : s.lifecycle ≠ .absent ∧ s.lifecycle ≠ .closed := by
  constructor
  · intro absent
    rw [(inv.absent absent).1] at pending
    cases pending
  · intro closed
    rw [inv.closed closed] at pending
    cases pending

theorem Inv.completed (created : s.lifecycle ≠ .absent) (running : s.lifecycle ≠ .closed)
    (later : s.lifecycle ≠ .creating 0) : s.completed ≠ none := by
  cases now : s.lifecycle with
  | absent => exact absurd now created
  | closed => exact absurd now running
  | opened => exact inv.opened now
  | creating copyIndex =>
    rcases inv.creating copyIndex now with ⟨rfl, -⟩ | ⟨-, done, -⟩
    · exact absurd now later
    · exact done

theorem Inv.sync_step (taken : s.step crc32 .sync = some t) : Inv crc32 t := by
  simp only [step] at taken
  split at taken
  · cases taken
  · rename_i v pending
    obtain ⟨size, decodes, follows⟩ := inv.writing v pending
    obtain ⟨created, running⟩ := inv.running pending
    have whole : s.interrupted = none := by
      by_contra cut
      exact running (inv.interrupted cut)
    have chosen : ∃ selection, Newest crc32 (s.file.write (pagedSuperblockSlotOffset v.copyIndex) v.bytes) selection ∧
        Matches (s.file.write (pagedSuperblockSlotOffset v.copyIndex) v.bytes) selection v ∧
          (s.lifecycle = .creating 0 → selection = ⟨0, 1⟩) := by
      rcases follows with ⟨first, copy, counter⟩ | ⟨later, selection, newest, copy, counter⟩
      · rw [copy] at decodes ⊢
        refine ⟨⟨0, v.generation⟩, inv.newest_first first size decodes, ⟨rfl, fun _ => ⟨copy.symm, ?_⟩⟩, fun _ => ?_⟩
        · rw [slotAt_write two_pos size, if_pos rfl]
        · rw [counter]
      · obtain ⟨chosen, landed, matched, -⟩ := landed newest size decodes copy counter
        exact ⟨chosen, landed, matched, fun first => absurd first later⟩
    obtain ⟨selection, newest, matched, first⟩ := chosen
    cases taken
    refine ⟨fun none => ?_, fun _ => sized_write (inv.sized created) _ _, fun copyIndex at' => ?_, fun _ none => ?_,
      fun _ none => ?_, fun cut => absurd whole cut, fun closed => ?_, fun w done => ?_, fun w none => ?_⟩
    · dsimp only at none
      split_ifs at none
    · dsimp only at at'
      split_ifs at at' with initial
      · cases at'
        exact .inr ⟨rfl, Option.some_ne_none v, first initial ▸ newest⟩
    · cases none
    · cases none
    · dsimp only at closed
      split_ifs at closed
    · cases done
      exact ⟨selection, newest, le_of_eq matched.generation.symm, .inl matched⟩
    · cases none

end

theorem Inv.crashed {file : FileImage} {cut : Option SlotWrite} (sized : pagedSuperblockZoneSize ≤ file.size)
    (unmarked : s.completed = none → generationAt crc32 file 1 = none)
    (selected : ∀ w ∈ s.completed, ∃ selection, Newest crc32 file selection ∧ w.generation ≤ selection.generation ∧
      (Matches file selection w ∨ ∃ v ∈ cut, Matches file selection v)) :
    Inv crc32 { s with file, writing := none, interrupted := cut, lifecycle := .closed } where
  absent := fun none => by cases none
  sized := fun _ => sized
  creating := fun _ none => by cases none
  unmarked := fun _ => unmarked
  opened := fun none => by cases none
  interrupted := fun _ => rfl
  closed := fun _ => rfl
  selected := selected
  writing := fun _ none => by cases none

section

variable (inv : Inv crc32 s)
include inv

theorem Inv.crash_writing (pending : s.writing = some v) {torn : Bytes} (size : torn.length = pagedSuperblockSlotSize)
    (rejected : pagedSuperblockSlotGeneration crc32 torn v.copyIndex = none ∨ torn = v.bytes ∨
      torn = slotAt s.file v.copyIndex) :
    Inv crc32 { s with
      file := s.file.write (pagedSuperblockSlotOffset v.copyIndex) torn
      writing := none, interrupted := some v, lifecycle := .closed } := by
  obtain ⟨created, running⟩ := inv.running pending
  obtain ⟨whole, decodes, follows⟩ := inv.writing v pending
  refine Inv.crashed (sized_write (inv.sized created) _ _) (fun fresh => ?_) fun w done => ?_
  · rcases follows with ⟨-, copy, -⟩ | ⟨later, -⟩
    · rw [copy, generationAt, slotAt_write two_pos size, if_neg (by decide), ← generationAt]
      exact inv.unmarked created fresh
    · exact absurd fresh (inv.completed created running later)
  · rcases follows with ⟨first, -⟩ | ⟨-, selection, newest, copy, counter⟩
    · rcases inv.creating 0 first with ⟨-, fresh⟩ | ⟨other, -⟩
      · rw [fresh] at done
        cases done
      · cases other
    · have matched := inv.current running done newest
      have kept (older : ∀ x, pagedSuperblockSlotGeneration crc32 torn v.copyIndex = some x →
          x < selection.generation ∨ x = selection.generation ∧ selection.copyIndex = 1) :
          ∃ chosen, Newest crc32 (s.file.write (pagedSuperblockSlotOffset v.copyIndex) torn) chosen ∧
            w.generation ≤ chosen.generation ∧
            (Matches (s.file.write (pagedSuperblockSlotOffset v.copyIndex) torn) chosen w ∨
              ∃ u ∈ some v, Matches (s.file.write (pagedSuperblockSlotOffset v.copyIndex) torn) chosen u) := by
        rw [copy] at older ⊢
        exact ⟨selection, newest.keep size older, le_of_eq matched.generation.symm, .inl (matched.kept newest size)⟩
      rcases rejected with none | rfl | same
      · refine kept fun x found => ?_
        rw [none] at found
        cases found
      · obtain ⟨chosen, newest', matched', later⟩ := landed newest size decodes copy counter
        refine ⟨chosen, newest', ?_, .inr ⟨v, rfl, matched'⟩⟩
        rw [← matched.generation]
        exact later
      · refine kept fun x found => newest.newest x ?_
        rw [same, copy] at found
        exact found

theorem Inv.crash_step {torn : Bytes} (rejected : s.TornRejected crc32 (.crash torn))
    (taken : s.step crc32 (.crash torn) = some t) : Inv crc32 t := by
  simp only [step] at taken
  split_ifs at taken with down
  rw [not_or] at down
  cases pending : s.writing with
  | none =>
    rw [pending] at taken
    cases taken
    refine Inv.crashed (inv.sized down.1) (inv.unmarked down.1) fun w done => ?_
    obtain ⟨selection, newest, later, -⟩ := inv.selected w done
    exact ⟨selection, newest, later, .inl (inv.current down.2 done newest)⟩
  | some v =>
    rw [pending] at taken
    cases taken
    obtain ⟨size, rejected⟩ := rejected v pending
    exact inv.crash_writing pending size rejected

theorem Inv.reopen_step (taken : s.step crc32 .reopen = some t) : Inv crc32 t := by
  simp only [step] at taken
  split_ifs at taken with closed
  have sized := inv.sized (by simp [closed])
  split at taken
  · rename_i selection image found
    cases taken
    obtain ⟨newest, same⟩ := (newestSuperblock_eq sized).mp found
    refine ⟨fun none => ?_, fun _ => sized, fun _ none => ?_, fun _ none => ?_, fun _ none => ?_, fun cut => ?_,
      fun none => ?_, fun w done => ?_, fun v pending => ?_⟩
    · cases none
    · cases none
    · cases none
    · cases none
    · exact absurd rfl cut
    · cases none
    · cases done
      exact ⟨selection, newest, le_rfl, .inl ⟨rfl, fun _ => ⟨rfl, same.symm⟩⟩⟩
    · rw [inv.closed closed] at pending
      cases pending
  · cases taken
    exact inv

theorem Inv.initializeSlot_taken {copyIndex : Nat} (creating : s.lifecycle = .creating copyIndex)
    (idle : s.writing = none) :
    ∃ v, v.copyIndex = copyIndex ∧ v.generation = copyIndex + 1 ∧
      s.step crc32 .initializeSlot = some { s with writing := some v } := by
  have copy : copyIndex < pagedSuperblockSlotCount := by
    rcases inv.creating copyIndex creating with ⟨rfl, -⟩ | ⟨rfl, -⟩
    · exact two_pos
    · exact one_lt_two
  obtain ⟨bytes, sealed⟩ : ∃ bytes, writeSuperblockSlot crc32 (slotImage (readSuperblockZone s.file) 0) copyIndex
      (copyIndex + 1) = .ok ⟨copyIndex, copyIndex + 1, bytes⟩ := by
    rw [slotImage_zone (inv.sized (by simp [creating])) (by decide), writeSuperblockSlot,
      seal_eq (length_slotAt s.file 0) copy]
    exact ⟨_, rfl⟩
  refine ⟨⟨copyIndex, copyIndex + 1, bytes⟩, rfl, rfl, ?_⟩
  simp only [step, creating, idle, sealed]

end

theorem Inv.step {e : SuperblockEvent} (inv : Inv crc32 s) (rejected : s.TornRejected crc32 e)
    (taken : s.step crc32 e = some t) : Inv crc32 t := by
  cases e with
  | create => exact inv.create_step taken
  | initializeSlot => exact inv.initializeSlot_step taken
  | commit => exact inv.commit_step taken
  | sync => exact inv.sync_step taken
  | crash => exact inv.crash_step rejected taken
  | reopen => exact inv.reopen_step taken

end

/-- Once a first superblock has been completed, a reopen finds the last completed one or the interrupted one. -/
theorem newest_survives {events : List SuperblockEvent} {s : SuperblockStore}
    (run : Run (Guarded (Steps (step crc32)) (TornRejected crc32)) .init events s) {w : SlotWrite}
    (completed : s.completed = some w) :
    ∃ selection image, newestSuperblock crc32 s.file = .ok (selection, image) ∧ w.generation ≤ selection.generation ∧
      ∃ v, (s.completed = some v ∨ s.interrupted = some v) ∧ selection.generation = v.generation ∧
        (v.generation < maxGeneration → selection.copyIndex = v.copyIndex ∧ image = v.bytes) := by
  have preserved (before : SuperblockStore) (e : SuperblockEvent) (after : SuperblockStore) (inv : Inv crc32 before)
      (taken : Guarded (Steps (step crc32)) (TornRejected crc32) before e after) : Inv crc32 after :=
    inv.step taken.1 taken.2
  have inv : Inv crc32 s := run.invariant preserved .init
  have created : s.lifecycle ≠ .absent := by
    intro absent
    rw [(inv.absent absent).2.1] at completed
    cases completed
  obtain ⟨selection, newest, later, matched⟩ := inv.selected w completed
  refine ⟨selection, slotAt s.file selection.copyIndex, (newestSuperblock_eq (inv.sized created)).mpr ⟨newest, rfl⟩,
    later, ?_⟩
  rcases matched with matched | ⟨v, cut, matched⟩
  · exact ⟨w, .inl completed, matched.generation, matched.slot⟩
  · exact ⟨v, .inr cut, matched.generation, matched.slot⟩

theorem second_slot_torn (crc32 : Bytes → UInt32) :
    ∃ s w v, Run (Guarded (Steps (step crc32)) (TornRejected crc32)) .init
        [.create [], .initializeSlot, .sync, .initializeSlot, .crash (List.replicate pagedSuperblockSlotSize 0)] s ∧
      s.completed = some w ∧ w.generation = 1 ∧ s.interrupted = some v ∧ v.generation = 2 := by
  let file := FileImage.empty.write 0 (List.replicate pageSize 0)
  have created : SuperblockStore.init.step crc32 (.create []) = some ⟨file, .creating 0, none, none, none⟩ := rfl
  have inv := Inv.init.create_step created
  obtain ⟨w, -, counter, first⟩ := inv.initializeSlot_taken rfl rfl
  have inv := inv.initializeSlot_step first
  have synced : SuperblockStore.step crc32 ⟨file, .creating 0, some w, none, none⟩ .sync =
      some ⟨file.write (pagedSuperblockSlotOffset w.copyIndex) w.bytes, .creating 1, none, some w, none⟩ := rfl
  have inv := inv.sync_step synced
  obtain ⟨v, -, counter', second⟩ := inv.initializeSlot_taken rfl rfl
  have run : Run (Guarded (Steps (step crc32)) (TornRejected crc32)) .init
      [.create [], .initializeSlot, .sync, .initializeSlot] _ :=
    .more (.more (.more (.single ⟨trivial, created⟩) ⟨trivial, first⟩) ⟨trivial, synced⟩) ⟨trivial, second⟩
  have rejected (x : Nat) : pagedSuperblockSlotGeneration crc32 (List.replicate pagedSuperblockSlotSize 0) x = none :=
    generation_zeros x
  exact ⟨_, w, v, run.more ⟨fun _ _ => ⟨length_replicate, .inl (rejected _)⟩, rfl⟩, rfl, counter, rfl, counter'⟩

theorem newest_survives_second_slot_torn :
    ∃ (s : SuperblockStore) (w : SlotWrite), Run (Guarded (Steps (step Wal.crc32Ieee)) (TornRejected Wal.crc32Ieee)) .init
        [.create [], .initializeSlot, .sync, .initializeSlot, .crash (List.replicate pagedSuperblockSlotSize 0)] s ∧
      s.completed = some w ∧ w.generation = 1 ∧
      ∃ selection image, newestSuperblock Wal.crc32Ieee s.file = .ok (selection, image) ∧
        w.generation ≤ selection.generation ∧
        ∃ v, (s.completed = some v ∨ s.interrupted = some v) ∧ selection.generation = v.generation ∧
          (v.generation < maxGeneration → selection.copyIndex = v.copyIndex ∧ image = v.bytes) := by
  obtain ⟨s, w, v, run, completed, counter, -⟩ := second_slot_torn Wal.crc32Ieee
  exact ⟨s, w, run, completed, counter, newest_survives run completed⟩

end SuperblockStore

end RedDB.Pager
