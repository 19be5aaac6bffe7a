import Mathlib

namespace RedDB.Allocator

def pageSize : Nat := 16384

def headerSize : Nat := 32

def freeIdsPerTrunk : Nat := (pageSize - headerSize - 8) / 4

inductive FreeListError
  | corrupted (message : String)
  | invalidTrunk (pageId : Nat)
  deriving DecidableEq, Repr

def FreeListError.display : FreeListError → String
  | .corrupted message => s!"Freelist corrupted: {message}"
  | .invalidTrunk pageId => s!"Invalid trunk page: {pageId}"

/-- A trunk page. Only the first `count` slots list free pages. -/
structure Trunk where
  pageId : Nat
  nextTrunk : Nat
  count : Nat
  slots : List Nat
  deriving DecidableEq, Repr

def Trunk.ids (trunk : Trunk) : List Nat := trunk.slots.take trunk.count

inductive PageImage
  | freelistTrunk (trunk : Trunk)
  | other (pageId : Nat)
  deriving DecidableEq, Repr

def PageImage.pageId : PageImage → Nat
  | .freelistTrunk trunk => trunk.pageId
  | .other pageId => pageId

structure FreeList where
  trunkHead : Nat
  freePages : List Nat
  totalFree : Nat
  dirty : Bool
  deriving DecidableEq, Repr

namespace FreeList

def new : FreeList := ⟨0, [], 0, false⟩

section

variable (self : FreeList)

def noteDurableTrunkAllocation (remainingInTrunk : Nat) : FreeList :=
  { self with totalFree := max (self.totalFree - 1) remainingInTrunk }

def markClean : FreeList := { self with dirty := false }

def nextInMemoryPage : Option Nat := self.freePages.getLast?

def allocate : Option Nat × FreeList :=
  match self.freePages.getLast? with
  | some pageId =>
    (some pageId, { self with freePages := self.freePages.dropLast, totalFree := self.totalFree - 1, dirty := true })
  | none => (none, self)

def free (pageId : Nat) : FreeList :=
  { self with freePages := self.freePages ++ [pageId], totalFree := self.totalFree + 1, dirty := true }

def freeBatch (pageIds : List Nat) : FreeList :=
  { self with
    freePages := self.freePages ++ pageIds, totalFree := self.totalFree + pageIds.length, dirty := true }

def containsAny (pages : List Nat) : Bool := self.freePages.any (pages.contains ·)

def loadFromTrunk : PageImage → Except FreeListError (Option Nat × FreeList)
  | .other pageId => .error (.invalidTrunk pageId)
  | .freelistTrunk trunk =>
    if trunk.nextTrunk = trunk.pageId then .error (.corrupted "trunk points to itself")
    else if freeIdsPerTrunk < trunk.count then
      .error (.corrupted s!"Trunk has {trunk.count} entries, max is {freeIdsPerTrunk}")
    else
      let freePages := self.freePages ++ [trunk.pageId] ++ trunk.ids
      .ok (if trunk.nextTrunk ≠ 0 then some trunk.nextTrunk else none,
        { freePages := freePages, totalFree := max (self.totalFree + 1) freePages.length, dirty := true
          trunkHead := trunk.nextTrunk })

end

theorem loadFromTrunk_ok {self freelist : FreeList} {trunk : Trunk} {next : Option Nat}
    (loaded : self.loadFromTrunk (.freelistTrunk trunk) = .ok (next, freelist)) :
    next.getD 0 = trunk.nextTrunk ∧ freelist = {
      trunkHead := trunk.nextTrunk
      freePages := self.freePages ++ [trunk.pageId] ++ trunk.ids
      totalFree := max (self.totalFree + 1) (self.freePages ++ [trunk.pageId] ++ trunk.ids).length
      dirty := true } := by
  simp only [loadFromTrunk] at loaded
  split_ifs at loaded with own excess last
  · cases loaded
    exact ⟨rfl, rfl⟩
  · cases loaded
    exact ⟨(not_not.mp last).symm, rfl⟩

variable (self : FreeList)

def createTrunk (trunkPageId nextTrunk : Nat) : Trunk × FreeList :=
  let count := min self.freePages.length freeIdsPerTrunk
  let kept := self.freePages.length - count
  (⟨trunkPageId, nextTrunk, count, (self.freePages.drop kept).reverse⟩,
    { self with freePages := self.freePages.take kept, dirty := true })

/-- The loop of `flush_to_trunks` with threshold 0. Each round takes at least the page that hosts the
    trunk, so the number of free pages bounds the rounds. -/
def flushRounds : Nat → FreeList → List Trunk × FreeList
  | 0, self => ([], self)
  | rounds + 1, self =>
    match self.freePages.getLast? with
    | none => ([], self)
    | some trunkPageId =>
      let popped := { self with freePages := self.freePages.dropLast, totalFree := self.totalFree - 1 }
      let (trunk, rest) := popped.createTrunk trunkPageId self.trunkHead
      let (trunks, final) := flushRounds rounds { rest with trunkHead := trunkPageId }
      (trunk :: trunks, final)

def flushToTrunks : List Trunk × FreeList := flushRounds self.freePages.length self

/-- The loop of `merge_all_trunks`. The first argument bounds the rounds, and none says that they were not
    enough. -/
def mergeRounds (loadPage : Nat → Option PageImage) :
    Nat → FreeList → List Nat → Option (Except FreeListError (List Nat) × FreeList)
  | 0, _, _ => none
  | rounds + 1, self, reclaimedTrunks =>
    if self.trunkHead = 0 then some (.ok reclaimedTrunks, self)
    else
      match loadPage self.trunkHead with
      | none => some (.error (.invalidTrunk self.trunkHead), self)
      | some trunk =>
        match self.loadFromTrunk trunk with
        | .error e => some (.error e, self)
        | .ok (_, loaded) => mergeRounds loadPage rounds loaded (reclaimedTrunks ++ [self.trunkHead])

/-- `merge_all_trunks`, with a bound on its rounds. -/
def mergeAllTrunks (loadPage : Nat → Option PageImage) (rounds : Nat) :
    Option (Except FreeListError (List Nat) × FreeList) := mergeRounds loadPage rounds self []

end FreeList

end RedDB.Allocator
