import RedDB.Library.Program
import RedDB.Allocator.FreeList

namespace RedDB.Allocator

open Library Program

def firstAllocatablePage : Nat := 3 + 64

inductive PagerError
  | readOnly
  | invalidDatabase (message : String)
  deriving DecidableEq, Repr

structure DeferredReclamation where
  enabled : Bool
  pending : List Nat
  published : List Nat
  deriving DecidableEq, Repr

/-- The allocator's part of the pager. `pages` is what reading a page gives, from the cache or the file.
    The page ownership journal and the superblocks are written along the way and have no effect here as
    long as no write fails. -/
structure Pager where
  readOnly : Bool
  pageCount : Nat
  freelistHead : Nat
  freelist : FreeList
  deferred : DeferredReclamation
  pages : Nat → PageImage

abbrev Pager.Op := Program Pager PagerError

namespace Pager

def create : Pager where
  readOnly := false
  pageCount := firstAllocatablePage
  freelistHead := 0
  freelist := .new
  deferred := ⟨false, [], []⟩
  pages := .other

def ensureWritable : Op Unit := do
  let pager ← read
  if pager.readOnly then fail .readOnly else pure ()

def invalid {α : Type} (message : String) : Op α := fail (.invalidDatabase message)

variable (freelist : FreeList) (pageId : Nat)

def setFreelist : Op Unit := Program.modify fun pager => { pager with freelist := freelist }

variable (image : PageImage)

def setPage : Op Unit :=
  Program.modify fun pager => { pager with pages := Function.update pager.pages pageId image }

def inRange (pager : Pager) (pageId : Nat) : Bool := firstAllocatablePage ≤ pageId && pageId < pager.pageCount

def load : Op (Option Nat × FreeList) :=
  match freelist.loadFromTrunk image with
  | .ok loaded => pure loaded
  | .error error => invalid s!"Freelist: {error.display}"

/-- `page_count.checked_add(n)` -/
def extendBy (n : Nat) (message : String) : Op Nat := do
  let pager ← read
  if 2 ^ 32 ≤ pager.pageCount + n then invalid message
  else
    Program.modify fun pager => { pager with pageCount := pager.pageCount + n }
    pure pager.pageCount

def takeInMemory : Op Nat := do
  let pager ← read
  match pager.freelist.allocate with
  | (some id, freelist) =>
    setFreelist freelist
    pure id
  | (none, _) => invalid "Freelist empty after trunk load"

def takeLoaded : Op Nat := do
  let pager ← read
  let (_, freelist) ← load pager.freelist image
  Program.modify fun pager => { pager with freelist := freelist, freelistHead := freelist.trunkHead }
  takeInMemory

def allocateUnjournaledTrunk (trunk : Trunk) : Op Nat :=
  match trunk.ids.getLast? with
  | some id => do
    let remaining := trunk.ids.length - 1
    setPage trunk.pageId (.freelistTrunk { trunk with count := remaining })
    let pager ← read
    setFreelist (pager.freelist.noteDurableTrunkAllocation remaining)
    pure id
  | none => takeLoaded (.freelistTrunk trunk)

def invalidTrunk : String := s!"Freelist: {(FreeListError.invalidTrunk pageId).display}"

def readTrunk (trunkId : Nat) : Op Trunk := do
  let pager ← read
  let image := pager.pages trunkId
  if image.pageId ≠ trunkId then invalid "misdirected freelist trunk"
  else
    let (_, detached) ← load .new image
    match image with
    | .other pageId => invalid (invalidTrunk pageId)
    | .freelistTrunk trunk =>
      if detached.freePages.all pager.inRange && decide detached.freePages.Nodup then pure trunk
      else invalid "invalid freelist trunk page"

section

variable (journaled : Bool)

def allocateFromTrunk (trunkId : Nat) : Op Nat := do
  let trunk ← readTrunk trunkId
  if journaled then takeLoaded (.freelistTrunk trunk) else allocateUnjournaledTrunk trunk

/-- Free pages in memory come first, then those of the trunks, then the end of the file. `journaled` is
    the answer of the write-ahead log on whether it has a page ownership journal. -/
def takePageId : Op Nat := do
  let pager ← read
  match pager.freelist.nextInMemoryPage with
  | some _ => takeInMemory
  | none =>
    if pager.freelist.trunkHead ≠ 0 then allocateFromTrunk journaled pager.freelist.trunkHead
    else extendBy 1 "page count overflow"

def allocatePage : Op Nat := do
  ensureWritable
  let pageId ← takePageId journaled
  setPage pageId (.other pageId)
  pure pageId

end

structure ExtentId where
  startPage : Nat
  nPages : Nat
  deriving DecidableEq, Repr

def ExtentId.pages (extent : ExtentId) : List Nat := List.range' extent.startPage extent.nPages

def reserveContigExtent (nPages : Nat) : Op ExtentId := do
  ensureWritable
  if nPages = 0 then invalid "contiguous extent must reserve at least one page"
  else
    let startPage ← extendBy nPages "contiguous extent page count overflow"
    Program.modify fun pager => { pager with
      pages := fun id => if startPage ≤ id ∧ id < startPage + nPages then .other id else pager.pages id }
    pure ⟨startPage, nPages⟩

variable (stored : Nat → PageImage)

def uncache (pageIds : List Nat) : Op Unit :=
  Program.modify fun pager => { pager with
    pages := fun id => if id ∈ pageIds then stored id else pager.pages id }

def freePage (pageId : Nat) : Op Unit := do
  ensureWritable
  let pager ← read
  if pager.deferred.enabled then
    if pager.inRange pageId = false then invalid "invalid deferred free page"
    else
      Program.modify fun pager => { pager with
        deferred := { pager.deferred with pending := pager.deferred.pending.insert pageId } }
  else
    uncache stored [pageId]
    setFreelist (pager.freelist.free pageId)

def enableDeferredReclamation : Op Unit :=
  Program.modify fun pager => { pager with deferred := { pager.deferred with enabled := true } }

def checkTrunks (pager : Pager) (retired : List Nat) : Nat → List Nat → Nat → Except PagerError Unit
  | 0, _, _ => .error (.invalidDatabase "invalid freelist trunk chain")
  | fuel + 1, visited, trunkId =>
    if trunkId = 0 ∨ retired = [] then .ok ()
    else if pager.inRange trunkId = false ∨ trunkId ∈ visited then
      .error (.invalidDatabase "invalid freelist trunk chain")
    else if (pager.pages trunkId).pageId ≠ trunkId then
      .error (.invalidDatabase "misdirected freelist trunk")
    else
      match FreeList.new.loadFromTrunk (pager.pages trunkId) with
      | .error error => .error (.invalidDatabase s!"Freelist: {error.display}")
      | .ok (next, loaded) =>
        if loaded.freePages.all pager.inRange = false then
          .error (.invalidDatabase "invalid free page range")
        else if loaded.containsAny retired then .error (.invalidDatabase "retired page is already free")
        else checkTrunks pager retired fuel (trunkId :: visited) (next.getD 0)

section

variable (stored : Nat → PageImage)

def freeRetiredPages (pageIds : List Nat) : Op Unit := do
  ensureWritable
  let pager ← read
  if pageIds.all pager.inRange = false then invalid "invalid retired page range"
  else if pageIds.Nodup then
    if pager.freelist.containsAny pageIds then invalid "retired page is already free"
    else
      lift (checkTrunks pager pageIds (pager.pageCount + 1) [] pager.freelist.trunkHead)
      uncache stored pageIds
      setFreelist (pager.freelist.freeBatch pageIds)
  else invalid "duplicate retired page"

def freeReleased (released : List Nat) : Op Unit :=
  if released ≠ [] then freeRetiredPages stored released else pure ()

def completeDeferredPublication (retained released : List Nat) : Op Unit := do
  freeReleased stored released
  Program.modify fun pager => { pager with
    deferred := { pager.deferred with
      pending := pager.deferred.pending.filter (· ∉ released), published := retained } }

end

def writeTrunks (pages : Nat → PageImage) (trunks : List Trunk) : Nat → PageImage :=
  trunks.foldl (fun pages trunk => Function.update pages trunk.pageId (.freelistTrunk trunk)) pages

def flush : Op Unit := do
  let pager ← read
  if pager.readOnly = false ∧ pager.freelist.dirty = true then
    let (trunks, freelist) := pager.freelist.flushToTrunks
    Program.modify fun pager => { pager with
      freelist := freelist.markClean, freelistHead := freelist.trunkHead
      pages := writeTrunks pager.pages trunks }
  else pure ()

end Pager

end RedDB.Allocator
