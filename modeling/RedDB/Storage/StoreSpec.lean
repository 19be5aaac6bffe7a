import RedDB.Storage.Layout

namespace RedDB.Storage

open Library Program

structure At (t : BTree) (root : Nat) (cache : Option (Nat × Bytes)) (pages : Multiset Page) : Prop where
  owns : t.store.Owns ValidPageId Page.pageId pages
  root : t.rootPageId = root
  cache : t.rightmostLeaf = cache

def StoreFailure : BTreeError → Prop
  | .pager _ => True
  | .valueLayout (.overflow (.pager _)) => True
  | _ => False

instance : DecidablePred StoreFailure := fun e => by
  unfold StoreFailure
  split <;> infer_instance

def OnlyOverflow (pages : Multiset Page) : Prop := ∀ page ∈ pages, page.pageType = .overflow

section

variable {t : BTree} {root pageId : Nat} {cache : Option (Nat × Bytes)} {pages rest : Multiset Page}
  {page old new : Page} {onError : BTreeError → BTree → Prop}

theorem At.congr {pages' : Multiset Page} (holds : At t root cache pages) (same : pages = pages') :
    At t root cache pages' := same ▸ holds

theorem At.stored (holds : At t root cache pages) (member : page ∈ pages) :
    t.store.cells page.pageId = some page := holds.owns.stored page member

variable {onOk : Page → BTree → Prop}

theorem wp_readPage (holds : At t root cache pages) (member : page ∈ pages)
    (same : page.pageId = pageId) (post : onOk page t) : wp (readPage pageId) onOk onError t := by
  unfold wp readPage
  rw [← same, holds.stored member]
  exact post

theorem wp_writePage {onOk : Unit → BTree → Prop} (holds : At t root cache (old ::ₘ rest))
    (same : old.pageId = pageId) (kept : new.pageId = pageId)
    (post : ∀ t', At t' root cache (new ::ₘ rest) → onOk () t') : wp (writePage pageId new) onOk onError t := by
  apply post
  subst same
  exact ⟨holds.owns.write kept, holds.root, holds.cache⟩

theorem wp_allocatePage {env : Env} {pageType : PageType} (holds : At t root cache pages)
    (post : ∀ pageId t', ValidPageId pageId → At t' root cache (Page.new pageType pageId ::ₘ pages) →
      onOk (Page.new pageType pageId) t')
    (failed : onError (.pager .outOfPages) t) : wp (allocatePage env pageType) onOk onError t := by
  unfold wp allocatePage
  cases next : env.allocator.next t.store.log with
  | none => exact failed
  | some pageId =>
    have valid := env.allocator.valid_next next
    have fresh := env.allocator.fresh next
    have owned := Heap.Owns.allocate (r := Page.new pageType pageId) holds.owns valid fresh
    exact post pageId _ valid ⟨owned, holds.root, holds.cache⟩

theorem wp_freePage {onOk : Unit → BTree → Prop} (holds : At t root cache (page ::ₘ rest))
    (same : page.pageId = pageId) (post : ∀ t', At t' root cache rest → onOk () t') :
    wp (freePage pageId) onOk onError t := by
  apply post
  subst same
  exact ⟨holds.owns.free, holds.root, holds.cache⟩

end

end RedDB.Storage
