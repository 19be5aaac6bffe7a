import RedDB.Library.Chunks
import RedDB.Library.Disk
import RedDB.Pager.Superblock
import RedDB.Storage.Page

namespace RedDB.Pager

open List Library Disk

def dwbZoneStartPage : Nat := 3

def dwbZonePages : Nat := 64

def dwbZoneBytes : Nat := dwbZonePages * pageSize

def firstAllocatablePage : Nat := dwbZoneStartPage + dwbZonePages

/-- `RDDW` -/
def dwbMagic : Bytes := [0x52, 0x44, 0x44, 0x57]

def pagedDwbHeaderSize : Nat := 12

def pagedDwbEntryHeaderSize : Nat := 4

def pagedDwbEntrySize : Nat := pagedDwbEntryHeaderSize + pageSize

def dwbMaxPagesPerFrame : Nat := (dwbZoneBytes - pagedDwbHeaderSize) / pagedDwbEntrySize

def dwbZoneOffset : Nat := dwbZoneStartPage * pageSize

abbrev PageImage := { data : Bytes // data.length = pageSize }

/-- A page with the number of its home, as `write_pages` takes it and a frame stages it. -/
structure PagedDwbEntry where
  pageId : UInt32
  page : PageImage
  deriving DecidableEq

inductive PagedDwbFrameError
  | shortHeader (got : Nat)
  | invalidMagic
  | incompleteFrame (expected got : Nat)
  | checksumMismatch (expected actual : Nat)
  deriving DecidableEq, Repr

section

structure PagedPageHeader where
  pageType : UInt8
  flags : UInt8
  cellCount : Nat
  freeStart : Nat
  freeEnd : Nat
  pageId : Nat
  parentId : Nat
  rightChild : Nat
  lsn : Nat
  checksum : Nat

variable (header : PagedPageHeader) (data : Bytes)

def encodePagedPageHeader : Bytes :=
  [header.pageType, header.flags] ++ toLeBytes 2 header.cellCount ++ toLeBytes 2 header.freeStart ++
    toLeBytes 2 header.freeEnd ++ toLeBytes 4 header.pageId ++ toLeBytes 4 header.parentId ++
    toLeBytes 4 header.rightChild ++ toLeBytes 8 header.lsn ++ toLeBytes 4 header.checksum

theorem length_encodePagedPageHeader :
    (encodePagedPageHeader header).length = Storage.headerSize := by
  simp only [encodePagedPageHeader, length_append, length_cons, length_nil, length_toLeBytes]
  decide

def pageTypeByte : Storage.PageType → UInt8
  | .free => 0
  | .bTreeLeaf => 1
  | .bTreeInterior => 2
  | .overflow => 3
  | .vector => 4
  | .freelistTrunk => 5
  | .header => 6
  | .graphNode => 7
  | .graphEdge => 8
  | .graphAdjacency => 9
  | .graphMeta => 10
  | .nativeMeta => 11
  | .vault => 12
  | .columnBlock => 13

/-- `Page::new` -/
def newPage (pageType : Storage.PageType) (pageId : Nat) : PageImage where
  val := encodePagedPageHeader
      { pageType := pageTypeByte pageType, flags := 0, cellCount := 0, freeStart := Storage.headerSize,
        freeEnd := pageSize, pageId, parentId := 0, rightChild := 0, lsn := 0, checksum := 0 } ++
    List.replicate (pageSize - Storage.headerSize) 0
  property := by
    rw [length_append, length_encodePagedPageHeader, length_replicate]
    decide

def pagedPageId : Nat := fromLeBytes (slice data 8 4)

def pagedPageChecksum : Nat := fromLeBytes (slice data 28 4)

/-- `set_paged_page_checksum`; the checksum is cleared by setting it to zero. -/
def setPagedPageChecksum (page : PageImage) (checksum : Nat) : PageImage where
  val := splice page.1 28 (toLeBytes 4 checksum)
  property := by
    rw [length_splice (by rw [length_toLeBytes, page.2]; decide)]
    exact page.2

variable (crc32 : Bytes → UInt32)

def updateChecksum (page : PageImage) : PageImage :=
  let page := setPagedPageChecksum page 0
  setPagedPageChecksum page (crc32 page.1).toNat

def verifyChecksum (page : PageImage) : Bool :=
  pagedPageChecksum page.1 = (crc32 (setPagedPageChecksum page 0).1).toNat

end

section

variable (crc32 : Bytes → UInt32)

def encodeEntry (entry : PagedDwbEntry) : Bytes := toLeBytes 4 entry.pageId.toNat ++ entry.page.1

def encodePagedDwbFrame (pages : List PagedDwbEntry) : Bytes :=
  let entries := pages.flatMap encodeEntry
  dwbMagic ++ toLeBytes 4 pages.length ++ toLeBytes 4 (crc32 entries).toNat ++ entries

/-- A zeroed page with `bytes` copied over it. -/
def pageFromSlice (bytes : Bytes) : PageImage where
  val := (bytes ++ List.replicate pageSize 0).take pageSize
  property := by
    rw [length_take, length_append, length_replicate]
    exact min_eq_left (Nat.le_add_left _ _)

/-- The entries at the front of `bytes`, whose length has been checked. -/
def decodeEntries : Nat → Bytes → List PagedDwbEntry
  | 0, _ => []
  | count + 1, bytes =>
    { pageId := .ofNat (fromLeBytes (bytes.take pagedDwbEntryHeaderSize))
      page := pageFromSlice (slice bytes pagedDwbEntryHeaderSize pageSize) } ::
    decodeEntries count (bytes.drop pagedDwbEntrySize)

def decodePagedDwbFrame (bytes : Bytes) : Except PagedDwbFrameError (List PagedDwbEntry) :=
  if bytes.length < pagedDwbHeaderSize then .error (.shortHeader bytes.length)
  else if bytes.take 4 ≠ dwbMagic then .error .invalidMagic
  else
    let count := fromLeBytes (slice bytes 4 4)
    let storedChecksum := fromLeBytes (slice bytes 8 4)
    let expectedLen := pagedDwbHeaderSize + count * pagedDwbEntrySize
    if bytes.length < expectedLen then .error (.incompleteFrame expectedLen bytes.length)
    else
      let actualChecksum := (crc32 (slice bytes pagedDwbHeaderSize (expectedLen - pagedDwbHeaderSize))).toNat
      if actualChecksum ≠ storedChecksum then .error (.checksumMismatch storedChecksum actualChecksum)
      else .ok (decodeEntries count (bytes.drop pagedDwbHeaderSize))

end

section

variable (crc32 : Bytes → UInt32)

def writePage (pageId : Nat) (page : PageImage) : DiskWrite := ⟨pageId * pageSize, page.1⟩

def homeWrites (entries : List PagedDwbEntry) : List DiskWrite :=
  entries.map fun entry => writePage entry.pageId.toNat entry.page

def clearWrites : List DiskWrite :=
  (List.range' dwbZoneStartPage dwbZonePages).map fun pageId =>
    writePage pageId (updateChecksum crc32 (newPage .header pageId))

def clearDwbZone : List DiskOp := (clearWrites crc32).map .write ++ [.sync]

def dwbZoneIsClear (buffer : Bytes) : Bool :=
  buffer.length == dwbZoneBytes && (List.range dwbZonePages).all fun index =>
    let page := pageFromSlice (slice buffer (index * pageSize) pageSize)
    verifyChecksum crc32 page && pagedPageId page.1 == dwbZoneStartPage + index &&
      page.1.head? == some (pageTypeByte .header)

def writePages (pages : List PagedDwbEntry) (doubleWrite : Bool) : List DiskOp :=
  if !doubleWrite then (homeWrites pages).map .write
  else
    let frames := (chunks (max dwbMaxPagesPerFrame 1) pages).flatMap fun chunk =>
      [.write ⟨dwbZoneOffset, encodePagedDwbFrame crc32 chunk⟩, .sync] ++ ((homeWrites chunk).map .write ++ [.sync])
    if pages.isEmpty then frames else frames ++ clearDwbZone crc32

/-- The writes of a recovery of `file`. -/
def recoverFromDwb (file : FileImage) : List DiskOp :=
  if file.size < dwbZoneOffset + dwbZoneBytes then []
  else
    let buffer := file.read dwbZoneOffset dwbZoneBytes
    if buffer.take 4 ≠ dwbMagic then
      if dwbZoneIsClear crc32 buffer then [] else clearDwbZone crc32
    else
      match decodePagedDwbFrame crc32 buffer with
      | .error _ => clearDwbZone crc32
      | .ok entries => (homeWrites entries).map .write ++ [.sync] ++ clearDwbZone crc32

end

def PagedDwbEntry.Home (entry : PagedDwbEntry) : Prop :=
  entry.pageId.toNat < dwbZoneStartPage ∨ firstAllocatablePage ≤ entry.pageId.toNat

/-- A store file between two operations of its pager; `crashed` until a recovery has run to its end. -/
structure DwbFile where
  file : FileImage
  crashed : Bool

inductive DwbEvent
  | writePages (pages : List PagedDwbEntry)
  | writeSuperblock (slot : SlotWrite)
  | crashWriting (pages : List PagedDwbEntry) (point : Nat) (left : FileImage)
  | crashRecovering (point : Nat) (left : FileImage)
  | recover

namespace DwbFile

variable (crc32 : Bytes → UInt32)

/-- `initialize` writes the first pages of a new file and then clears the zone. -/
def created (reserved : FileImage) : DwbFile := ⟨((synced reserved).run (clearDwbZone crc32)).view, false⟩

/-- The disk when `write_pages` has done its first `point` writes and syncs. -/
def writing (s : DwbFile) (pages : List PagedDwbEntry) (point : Nat) : Disk :=
  (synced s.file).run ((writePages crc32 pages true).take point)

def recovering (s : DwbFile) (point : Nat) : Disk := (synced s.file).run ((recoverFromDwb crc32 s.file).take point)

inductive Step : DwbFile → DwbEvent → DwbFile → Prop
  | writePages {s : DwbFile} {pages : List PagedDwbEntry} (up : s.crashed = false)
      (home : ∀ entry ∈ pages, entry.Home) :
      Step s (.writePages pages) ⟨((synced s.file).run (Pager.writePages crc32 pages true)).view, false⟩
  | writeSuperblock {s : DwbFile} {slot : SlotWrite} (up : s.crashed = false)
      (size : slot.bytes.length = pagedSuperblockSlotSize) :
      Step s (.writeSuperblock slot) ⟨s.file.write (pagedSuperblockSlotOffset slot.copyIndex) slot.bytes, false⟩
  | crashWriting {s : DwbFile} {pages : List PagedDwbEntry} {point : Nat} {left : FileImage} (up : s.crashed = false)
      (home : ∀ entry ∈ pages, entry.Home) (torn : (s.writing crc32 pages point).Crashed left) :
      Step s (.crashWriting pages point left) ⟨left, true⟩
  | crashRecovering {s : DwbFile} {point : Nat} {left : FileImage} (torn : (s.recovering crc32 point).Crashed left) :
      Step s (.crashRecovering point left) ⟨left, true⟩
  | recover {s : DwbFile} :
      Step s .recover ⟨((synced s.file).run (recoverFromDwb crc32 s.file)).view, false⟩

end DwbFile

end RedDB.Pager
