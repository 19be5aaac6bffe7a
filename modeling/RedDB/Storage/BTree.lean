import RedDB.Storage.ValueLayout

namespace RedDB.Storage

open Library Program

def corrupted {α : Type} (message : String) : BTreeM α := fail (.corrupted message)

section

def leafCapacity : Nat := pageSize - leafSlotArrayOffset

def absDiff (a b : Nat) : Nat := (a - b) + (b - a)

def improves (balance : Nat) : Option (Nat × Nat) → Bool
  | some (_, bestBalance) => balance < bestBalance
  | none => true

def splitLoop (total : Nat) : List (Bytes × Bytes) → Nat → Nat → Option (Nat × Nat) → Option (Nat × Nat)
  | [], _, _, best => best
  | [_], _, _, best => best
  | entry :: next :: entries, index, leftBytes, best =>
    let left := leftBytes + leafEntrySize entry
    let right := total - left
    let balance := absDiff left right
    splitLoop total (next :: entries) (index + 1) left
      (if left ≤ leafCapacity ∧ right ≤ leafCapacity ∧ improves balance best then some (index, balance) else best)

def splitPoint (entries : List (Bytes × Bytes)) : Option Nat :=
  (splitLoop (leafEntriesSize entries) entries 1 0 none).map Prod.fst

def entriesWith (page : Page) (key value : Bytes) : List (Bytes × Bytes) :=
  page.leafCells.insertIdx (page.leafCells.takeWhile fun cell => decide (cell.1 < key)).length (key, value)

def relinkSuccessor (successorId newId : Nat) : BTreeM Unit :=
  if successorId ≠ 0 then do
    let successor ← readPage successorId
    if successor.pageType ≠ .bTreeLeaf then corrupted "invalid split successor type"
    else writePage successorId { successor with prevLeaf := newId }
  else pure ()

def splitLeaf (env : Env) (page : Page) (newKey newValue : Bytes) : BTreeM (Page × Page × Bytes) := do
  let entries := entriesWith page newKey newValue
  match splitPoint entries with
  | none => corrupted "leaf entries cannot fit in two pages"
  | some mid => do
    let newPage ← allocatePage env .bTreeLeaf
    let oldNext := page.nextLeaf
    let newPage := { newPage with prevLeaf := page.pageId, nextLeaf := oldNext }
    let page := { page with nextLeaf := newPage.pageId }
    let page ← lift (writeLeafEntries page (entries.take mid))
    let newPage ← lift (writeLeafEntries newPage (entries.drop mid))
    let separator := ((entries.drop mid).headD ([], [])).1
    writePage newPage.pageId newPage
    relinkSuccessor oldNext newPage.pageId
    pure (page, newPage, separator)

end

end RedDB.Storage
