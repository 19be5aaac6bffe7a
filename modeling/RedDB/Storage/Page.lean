import RedDB.Library.BinarySearch

namespace RedDB.Storage

open Library

scoped instance uint8LinearOrder : LinearOrder UInt8 where
  le_refl := UInt8.le_refl
  le_trans _ _ _ := UInt8.le_trans
  le_antisymm _ _ := UInt8.le_antisymm
  le_total := UInt8.le_total
  lt_iff_le_not_ge _ _ := Std.lt_iff_le_and_not_ge
  toDecidableLE := inferInstance

abbrev Bytes := List UInt8

def pageSize : Nat := 16384

def headerSize : Nat := 32

def contentSize : Nat := pageSize - headerSize

def maxKeySize : Nat := 1024

def leafSlotArrayOffset : Nat := headerSize + 8

inductive PageType
  | free
  | bTreeLeaf
  | bTreeInterior
  | overflow
  | vector
  | freelistTrunk
  | header
  | graphNode
  | graphEdge
  | graphAdjacency
  | graphMeta
  | nativeMeta
  | vault
  | columnBlock
  deriving DecidableEq, Repr

/-- A page by the cells its slots point to. `freeEnd` is the offset of the lowest cell: cells that
    were deleted or shortened keep the bytes below it occupied. -/
structure Page where
  pageType : PageType
  pageId : Nat
  freeEnd : Nat
  rightChild : Nat
  prevLeaf : Nat
  nextLeaf : Nat
  leafCells : List (Bytes × Bytes)
  interiorCells : List (Bytes × Nat)
  nextOverflow : Nat
  payload : Bytes
  deriving DecidableEq, Repr

def Page.new (pageType : PageType) (pageId : Nat) : Page :=
  { pageType, pageId, freeEnd := pageSize, rightChild := 0, prevLeaf := 0, nextLeaf := 0, leafCells := [],
    interiorCells := [], nextOverflow := 0, payload := [] }

inductive PagerError
  | pageNotFound (pageId : Nat)
  | outOfPages
  deriving DecidableEq, Repr

inductive OverflowError
  | pager (error : PagerError)
  | notOverflowPage (pageId : Nat)
  | payloadTooLarge (pageId : Nat) (len : Nat)
  | lengthMismatch (expected actual : Nat)
  | invalidHead (pageId : Nat)
  /-- The chain runs in a circle: the source never returns. -/
  | endless
  deriving DecidableEq, Repr

inductive ValueCodecError
  | unknownFlag (flag : UInt8)
  | truncatedHeader
  | lz4Decode (message : String)
  deriving DecidableEq, Repr

inductive ValueLayoutError
  | unknownFlag (flag : UInt8)
  | truncatedPointer (got : Nat)
  | codec (error : ValueCodecError)
  | overflow (error : OverflowError)
  deriving DecidableEq, Repr

inductive BTreeError
  | duplicateKey
  | keyTooLarge (size : Nat)
  | valueTooLarge (size : Nat)
  | corrupted (message : String)
  | pager (error : PagerError)
  | valueLayout (error : ValueLayoutError)
  | readLimitExceeded (requiredBytes limitBytes : Nat)
  deriving DecidableEq, Repr

section

def leafEntrySize (entry : Bytes × Bytes) : Nat := 2 + 4 + entry.1.length + entry.2.length

def leafEntriesSize (entries : List (Bytes × Bytes)) : Nat := (entries.map leafEntrySize).sum

section

variable (page : Page)

def leafCellsStart : Nat := if page.freeEnd = 0 then pageSize else page.freeEnd

def leafSlotsEnd : Nat := leafSlotArrayOffset + page.leafCells.length * 2

def leafFreeBytes : Nat := leafCellsStart page - leafSlotsEnd page

def clearLeafCells : Page := { page with leafCells := [], freeEnd := pageSize }

end

def layLeafCells (page : Page) : List (Bytes × Bytes) → Except BTreeError Page
  | [] => .ok page
  | (k, v) :: entries =>
    let cellSize := 4 + k.length + v.length
    let cellsStart := leafCellsStart page
    let slotEnd := leafSlotArrayOffset + (page.leafCells.length + 1) * 2
    if slotEnd + cellSize > cellsStart then
      .error (.corrupted "leaf rebuild overflowed page")
    else
      layLeafCells { page with freeEnd := cellsStart - cellSize, leafCells := page.leafCells ++ [(k, v)] } entries

def writeLeafEntries (page : Page) (entries : List (Bytes × Bytes)) : Except BTreeError Page :=
  layLeafCells (clearLeafCells page) entries

def canInsertLeaf (page : Page) (key value : Bytes) : Bool := 2 + 4 + key.length + value.length ≤ leafFreeBytes page

end

end RedDB.Storage
