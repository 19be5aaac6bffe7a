import RedDB.Library.Heap
import RedDB.Library.Program
import RedDB.Storage.Page

namespace RedDB.Storage

open Library

/-- Page ids are `u32`, and 0 means no page. -/
def ValidPageId (pageId : Nat) : Prop := pageId ≠ 0 ∧ pageId < 2 ^ 32

instance (pageId : Nat) : Decidable (ValidPageId pageId) := inferInstanceAs (Decidable (_ ∧ _))

/-- The compressor of `lz4_flex`. -/
structure Lz4 where
  compress : Bytes → Bytes
  decompress : Bytes → Nat → Except String Bytes
  decompress_compress : ∀ input, decompress (compress input) input.length = .ok input

structure Env where
  allocator : Allocator ValidPageId
  lz4 : Lz4

structure BTree where
  store : Heap Page
  rootPageId : Nat
  rightmostLeaf : Option (Nat × Bytes)

abbrev BTreeM := Program BTree BTreeError

def BTree.new (cells : Nat → Option Page) : BTree :=
  { store := { cells, log := [] }, rootPageId := 0, rightmostLeaf := none }

variable (pageId : Nat)

def readPage : BTreeM Page := fun t =>
  match t.store.cells pageId with
  | some page => (.ok page, t)
  | none => (.error (.pager (.pageNotFound pageId)), t)

def writePage (page : Page) : BTreeM Unit :=
  Program.modify fun t => { t with store := t.store.write pageId page }

def allocatePage (env : Env) (pageType : PageType) : BTreeM Page := fun t =>
  match env.allocator.next t.store.log with
  | some pageId =>
    (.ok (Page.new pageType pageId), { t with store := t.store.allocate pageId (Page.new pageType pageId) })
  | none => (.error (.pager .outOfPages), t)

def freePage : BTreeM Unit := Program.modify fun t => { t with store := t.store.free pageId }

/-- The length of the file after `log` and its free pages, the one freed last first. -/
def filePages : List HeapOp → Nat × List Nat
  | [] => (1, [])
  | .allocate _ :: log =>
    match filePages log with
    | (count, _ :: free) => (count, free)
    | (count, []) => (count + 1, [])
  | .free pageId :: log => ((filePages log).1, pageId :: (filePages log).2)

def fileAllocator : Allocator ValidPageId where
  next log :=
    let pages := filePages log
    let pageId := pages.2.headD pages.1
    if ValidPageId pageId ∧ allocations log pageId ≤ frees log pageId then some pageId else none
  valid_next picked := by
    obtain ⟨⟨valid, -⟩, same⟩ := Option.ite_none_right_eq_some.mp picked
    cases same
    exact valid
  fresh picked := by
    obtain ⟨⟨-, fresh⟩, same⟩ := Option.ite_none_right_eq_some.mp picked
    cases same
    exact fresh

def storedLz4 : Lz4 where
  compress input := input
  decompress input _ := .ok input
  decompress_compress _ := rfl

def fileEnv : Env := { allocator := fileAllocator, lz4 := storedLz4 }

end RedDB.Storage
