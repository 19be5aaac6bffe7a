import RedDB.Library.FileImage
import RedDB.Library.LittleEndian
import RedDB.Library.Runs

namespace RedDB.Pager

open Library List

abbrev Bytes := List UInt8

def pageSize : Nat := 16384

def pagedSuperblockSlotSize : Nat := 4096

def pagedSuperblockSlotCount : Nat := 2

def pagedSuperblockZoneSize : Nat := pagedSuperblockSlotSize * pagedSuperblockSlotCount

/-- `RDBPSBK1` -/
def pagedSuperblockMagic : Bytes := [0x52, 0x44, 0x42, 0x50, 0x53, 0x42, 0x4B, 0x31]

def pagedSuperblockSlotVersion : Nat := 1

def pagedSuperblockTrailerOffset : Nat := pagedSuperblockSlotSize - 32

def pagedSuperblockVersionOffset : Nat := pagedSuperblockTrailerOffset + 8

def pagedSuperblockCopyOffset : Nat := pagedSuperblockTrailerOffset + 12

def pagedSuperblockGenerationOffset : Nat := pagedSuperblockTrailerOffset + 16

def pagedSuperblockCrcOffset : Nat := pagedSuperblockTrailerOffset + 24

def maxGeneration : Nat := 2 ^ 64 - 1

inductive DatabaseHeaderError
  | shortPage (need got : Nat)
  deriving DecidableEq, Repr

def DatabaseHeaderError.message : DatabaseHeaderError → String
  | .shortPage need got => s!"database header page too short: need {need} bytes, got {got}"

inductive PagerError
  | invalidDatabase (message : String)
  | superblockZoneUnrecoverable
  deriving DecidableEq, Repr

def ensureLen (bytes : Bytes) (need : Nat) : Except DatabaseHeaderError Unit :=
  if bytes.length < need then .error (.shortPage need bytes.length) else .ok ()

/-- `read_u32` and `read_u64`. -/
def readUint (width : Nat) (bytes : Bytes) (offset : Nat) : Except DatabaseHeaderError Nat := do
  ensureLen bytes (offset + width)
  pure (fromLeBytes (slice bytes offset width))

/-- `write_u32` and `write_u64`. -/
def writeUint (width : Nat) (bytes : Bytes) (offset value : Nat) : Except DatabaseHeaderError Bytes := do
  ensureLen bytes (offset + width)
  pure (splice bytes offset (toLeBytes width value))

structure PagedSuperblockSelection where
  copyIndex : Nat
  generation : Nat
  deriving DecidableEq, Repr

def pagedSuperblockSlotOffset (copyIndex : Nat) : Nat :=
  copyIndex % pagedSuperblockSlotCount * pagedSuperblockSlotSize

def pagedSuperblockNextCopy : Option PagedSuperblockSelection → Nat
  | some selection => (selection.copyIndex + 1) % pagedSuperblockSlotCount
  | none => 0

section

variable (crc32 : Bytes → UInt32)

variable (file : FileImage) (slot : Bytes) (zone : Bytes)

def sealPagedSuperblockSlot (copyIndex generation : Nat) : Except DatabaseHeaderError Bytes := do
  ensureLen slot pagedSuperblockSlotSize
  let slot := splice slot pagedSuperblockTrailerOffset pagedSuperblockMagic
  let slot ← writeUint 4 slot pagedSuperblockVersionOffset pagedSuperblockSlotVersion
  let slot ← writeUint 4 slot pagedSuperblockCopyOffset (if copyIndex < 2 ^ 32 then copyIndex else 2 ^ 32 - 1)
  let slot ← writeUint 8 slot pagedSuperblockGenerationOffset generation
  let slot ← writeUint 4 slot pagedSuperblockCrcOffset (crc32 (slot.take pagedSuperblockCrcOffset)).toNat
  writeUint 4 slot (pagedSuperblockCrcOffset + 4) 0

def pagedSuperblockSlotGeneration (copyIndex : Nat) : Option Nat :=
  if slot.length < pagedSuperblockSlotSize then none
  else if slice slot pagedSuperblockTrailerOffset 8 ≠ pagedSuperblockMagic then none
  else if (readUint 4 slot pagedSuperblockVersionOffset).toOption ≠ some pagedSuperblockSlotVersion then none
  else if 2 ^ 32 ≤ copyIndex ∨ (readUint 4 slot pagedSuperblockCopyOffset).toOption ≠ some copyIndex then none
  else if (readUint 4 slot pagedSuperblockCrcOffset).toOption ≠
      some (crc32 (slot.take pagedSuperblockCrcOffset)).toNat then none
  else (readUint 8 slot pagedSuperblockGenerationOffset).toOption

def maxByKey {α : Type} (key : α → Nat) (l : List α) : Option α :=
  l.foldl (fun best a => match best with
    | none => some a
    | some b => if key b ≤ key a then some a else some b) none

def selectPagedSuperblock : Option PagedSuperblockSelection :=
  maxByKey (·.generation) ((range pagedSuperblockSlotCount).filterMap fun copyIndex =>
    let start := copyIndex * pagedSuperblockSlotSize
    if start + pagedSuperblockSlotSize ≤ zone.length then
      (pagedSuperblockSlotGeneration crc32 (slice zone start pagedSuperblockSlotSize) copyIndex).map
        fun generation => ⟨copyIndex, generation⟩
    else none)

def readSuperblockZone : Bytes :=
  file.read 0 (min file.size pagedSuperblockZoneSize) ++
    replicate (pagedSuperblockZoneSize - min file.size pagedSuperblockZoneSize) 0

def slotImage (copyIndex : Nat) : Bytes :=
  slice zone (copyIndex * pagedSuperblockSlotSize) pagedSuperblockSlotSize

def newestSuperblock : Except PagerError (PagedSuperblockSelection × Bytes) :=
  let zone := readSuperblockZone file
  match selectPagedSuperblock crc32 zone with
  | none => .error .superblockZoneUnrecoverable
  | some selection => .ok (selection, slotImage zone selection.copyIndex)

structure SlotWrite where
  copyIndex : Nat
  generation : Nat
  bytes : Bytes

/-- The write that `write_superblock_slot` issues. -/
def writeSuperblockSlot (image : Bytes) (copyIndex generation : Nat) : Except PagerError SlotWrite :=
  match sealPagedSuperblockSlot crc32 image copyIndex generation with
  | .ok slot => .ok ⟨copyIndex, generation, slot⟩
  | .error error => .error (.invalidDatabase error.message)

/-- `mutate` edits the image in place and so keeps its length. -/
abbrev Mutate := (image : Bytes) → Except PagerError { edited : Bytes // edited.length = image.length }

def commitSuperblock (mutate : Mutate) : Except PagerError SlotWrite := do
  let (newest, image) ← newestSuperblock crc32 file
  let edited ← mutate image
  writeSuperblockSlot crc32 edited.1 (pagedSuperblockNextCopy (some newest))
    (min (newest.generation + 1) maxGeneration)

end

inductive Lifecycle
  | absent
  | creating (copyIndex : Nat)
  | opened
  | closed
  deriving DecidableEq, Repr

/-- A store file and its pager. `writing` is the slot write not synced yet, `completed` the last one that
    is known to be on the disk, `interrupted` the one that the last crash cut short. -/
structure SuperblockStore where
  file : FileImage
  lifecycle : Lifecycle
  writing : Option SlotWrite
  completed : Option SlotWrite
  interrupted : Option SlotWrite

inductive SuperblockEvent
  | create (header : Bytes)
  | initializeSlot
  | commit (mutate : Mutate)
  | sync
  | crash (torn : Bytes)
  | reopen

namespace SuperblockStore

def init : SuperblockStore := ⟨.empty, .absent, none, none, none⟩

variable (crc32 : Bytes → UInt32)

def step (s : SuperblockStore) : SuperblockEvent → Option SuperblockStore
  | .create header =>
    if s.lifecycle = .absent ∧ header.length ≤ pagedSuperblockTrailerOffset then
      some { s with
        file := s.file.write 0 (header ++ replicate (pageSize - header.length) 0)
        lifecycle := .creating 0 }
    else none
  | .initializeSlot =>
    match s.lifecycle, s.writing with
    | .creating copyIndex, none =>
      match writeSuperblockSlot crc32 (slotImage (readSuperblockZone s.file) 0) copyIndex (copyIndex + 1) with
      | .ok write => some { s with writing := some write }
      | .error _ => some s
    | _, _ => none
  | .commit mutate =>
    match s.lifecycle, s.writing with
    | .opened, none =>
      match commitSuperblock crc32 s.file mutate with
      | .ok write => some { s with writing := some write }
      | .error _ => some s
    | _, _ => none
  | .sync =>
    match s.writing with
    | none => none
    | some write =>
      some { s with
        file := s.file.write (pagedSuperblockSlotOffset write.copyIndex) write.bytes
        writing := none
        completed := some write
        lifecycle := if s.lifecycle = .creating 0 then .creating 1 else .opened }
  | .crash torn =>
    if s.lifecycle = .absent ∨ s.lifecycle = .closed then none
    else
      some { s with
        file := match s.writing with
          | some write => s.file.write (pagedSuperblockSlotOffset write.copyIndex) torn
          | none => s.file
        writing := none
        interrupted := s.writing
        lifecycle := .closed }
  | .reopen =>
    if s.lifecycle = .closed then
      match newestSuperblock crc32 s.file with
      | .ok (selection, image) =>
        some { s with
          lifecycle := .opened
          completed := some ⟨selection.copyIndex, selection.generation, image⟩
          interrupted := none }
      | .error _ => some s
    else none

end SuperblockStore

end RedDB.Pager
