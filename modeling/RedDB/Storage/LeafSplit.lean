import RedDB.Storage.SplitSpec

namespace RedDB.Storage

open List Library Library.Cut Program Prod Heap

section

def CellWithin (cell : Bytes × Bytes) : Prop := cell.1.length ≤ maxKeySize ∧ cell.2.length ≤ overflowThreshold + 1

instance : DecidablePred CellWithin := fun _ => inferInstanceAs (Decidable (_ ∧ _))

structure LeafPage (page : Page) : Prop where
  kind : page.pageType = .bTreeLeaf
  filled : page.leafCells ≠ []
  sorted : (page.leafCells.map fst).Pairwise (· < ·)
  within : ∀ cell ∈ page.leafCells, CellWithin cell
  slots : leafSlotsEnd page ≤ page.freeEnd
  packed : page.freeEnd + cellsSize page.leafCells ≤ pageSize

theorem CellWithin.size {cell : Bytes × Bytes} (within : CellWithin cell) : leafEntrySize cell ≤ 5127 := by
  obtain ⟨key, value⟩ := within
  simp only [maxKeySize, overflowThreshold, pageSize] at key value
  unfold leafEntrySize
  omega

theorem LeafPage.size {page : Page} (leaf : LeafPage page) : leafEntriesSize page.leafCells ≤ leafCapacity := by
  have slots := leaf.slots
  have packed := leaf.packed
  rw [leafEntriesSize_eq]
  simp only [leafSlotsEnd, leafCapacity, leafSlotArrayOffset, headerSize, pageSize] at slots packed ⊢
  omega

end

section

def headId (next : Nat) : List Page → Nat
  | [] => next
  | page :: _ => page.pageId

def lastPageId (prev : Nat) : List Page → Nat
  | [] => prev
  | page :: rest => lastPageId page.pageId rest

/-- The links of adjacent leaf pages between `prev` and `next`. -/
def Linked (prev next : Nat) : List Page → Prop
  | [] => True
  | page :: rest => page.prevLeaf = prev ∧ page.nextLeaf = headId next rest ∧ Linked page.pageId next rest

theorem linked_append (prev next : Nat) (xs ys : List Page) :
    Linked prev next (xs ++ ys) ↔ Linked prev (headId next ys) xs ∧ Linked (lastPageId prev xs) next ys := by
  induction xs generalizing prev with
  | nil => simp [Linked, lastPageId]
  | cons x xs ih =>
    have head : headId next (xs ++ ys) = headId (headId next ys) xs := by cases xs <;> rfl
    simp only [cons_append, Linked, lastPageId, ih, head, and_assoc]

structure LeafChain (t : BTree) (pages : List Page) : Prop where
  linked : Linked 0 0 pages
  kind : ∀ page ∈ pages, page.pageType = .bTreeLeaf
  stored : ∀ page ∈ pages, t.store.cells page.pageId = some page
  distinct : (pages.map Page.pageId).Nodup
  real : ∀ page ∈ pages, page.pageId ≠ 0
  live : ∀ page ∈ pages, frees t.store.log page.pageId < allocations t.store.log page.pageId
  balanced : ∀ pageId, frees t.store.log pageId ≤ allocations t.store.log pageId

theorem LeafChain.unused {env : Env} {t : BTree} {pages : List Page} {newId : Nat} (chain : LeafChain t pages)
    (next : env.allocator.next t.store.log = some newId) : newId ∉ pages.map Page.pageId := by
  intro member
  obtain ⟨page, inside, rfl⟩ := mem_map.mp member
  have live := chain.live page inside
  have fresh := env.allocator.fresh next
  omega

def relinked (newId : Nat) : List Page → List Page
  | [] => []
  | successor :: rest => { successor with prevLeaf := newId } :: rest

theorem relinked_ids (newId : Nat) (pages : List Page) :
    (relinked newId pages).map Page.pageId = pages.map Page.pageId := by
  cases pages <;> rfl

theorem headId_relinked (newId next : Nat) (pages : List Page) : headId next (relinked newId pages) = headId next pages := by
  cases pages <;> rfl

theorem linked_relinked {prev next newId : Nat} {pages : List Page} (linked : Linked prev next pages) :
    Linked newId next (relinked newId pages) := by
  cases pages with
  | nil => trivial
  | cons successor rest => exact ⟨rfl, linked.2⟩

end

section

variable {env : Env} {t : BTree} {page : Page} {before after : List Page} {key value : Bytes} {newId : Nat}

theorem LeafPage.entriesWith (leaf : LeafPage page) (absent : key ∉ page.leafCells.map fst) (value : Bytes) :
    ∃ lower upper, page.leafCells = lower ++ upper ∧ entriesWith page key value = lower ++ (key, value) :: upper ∧
      ((lower ++ (key, value) :: upper).map fst).Pairwise (· < ·) := by
  rcases exists_position fst leaf.sorted key with ⟨lower, x, upper, cells, same, -, -⟩ |
    ⟨lower, upper, cells, below, above⟩
  · exact absurd (by simp [cells, ← same]) absent
  · refine ⟨lower, upper, cells, ?_, ?_⟩
    · have position : (page.leafCells.takeWhile fun cell => decide (cell.1 < key)).length = lower.length := by
        rw [cells]
        apply length_takeWhile_cut
        · intro cell member
          simpa using below cell member
        · intro cell member
          simpa using (above cell (mem_of_mem_head? member)).le
      unfold Storage.entriesWith
      rw [position, cells, insertIdx_cut]
    · have sorted := leaf.sorted
      rw [cells, map_append] at sorted
      rw [map_append, map_cons]
      apply sorted_insert sorted
      · intro k member
        obtain ⟨cell, inside, rfl⟩ := mem_map.mp member
        exact below cell inside
      · intro k member
        obtain ⟨cell, inside, rfl⟩ := mem_map.mp member
        exact above cell inside

theorem relinked_kind (kind : ∀ p ∈ after, p.pageType = .bTreeLeaf) :
    ∀ p ∈ relinked newId after, p.pageType = .bTreeLeaf := by
  cases after with
  | nil => nofun
  | cons successor rest =>
    intro p member
    rcases mem_cons.mp member with rfl | member
    · exact kind successor mem_cons_self
    · exact kind p (mem_cons_of_mem _ member)

structure Divided (t t' : BTree) (page left right : Page) (after : List Page) (newId : Nat) : Prop where
  log : t'.store.log = .allocate newId :: t.store.log
  fresh : t'.store.cells newId = some right
  successors : ∀ p ∈ relinked newId after, t'.store.cells p.pageId = some p
  others : ∀ a, a ≠ newId → a ∉ after.map Page.pageId → t'.store.cells a = t.store.cells a
  leftPage : left.pageId = page.pageId ∧ left.pageType = page.pageType ∧ left.prevLeaf = page.prevLeaf ∧
    left.nextLeaf = newId
  rightPage : right.pageId = newId ∧ right.pageType = .bTreeLeaf ∧ right.prevLeaf = page.pageId ∧
    right.nextLeaf = page.nextLeaf

variable {onError : BTreeError → BTree → Prop} {t' : BTree}

theorem wp_relinkSuccessor_chain {onOk : Unit → BTree → Prop}
    (kind : ∀ p ∈ after, p.pageType = .bTreeLeaf) (stored : ∀ p ∈ after, t.store.cells p.pageId = some p)
    (real : ∀ p ∈ after, p.pageId ≠ 0) (distinct : (after.map Page.pageId).Nodup)
    (post : ∀ t', t'.store.log = t.store.log → (∀ p ∈ relinked newId after, t'.store.cells p.pageId = some p) →
      (∀ a, a ∉ after.map Page.pageId → t'.store.cells a = t.store.cells a) → onOk () t') :
    wp (relinkSuccessor (headId 0 after) newId) onOk onError t := by
  unfold relinkSuccessor
  cases after with
  | nil => exact post t rfl nofun fun _ _ => rfl
  | cons successor rest =>
    obtain ⟨apart, -⟩ := nodup_cons.mp distinct
    have named : successor.pageId ≠ 0 := real successor mem_cons_self
    simp only [headId, ne_eq, named, not_false_eq_true, if_true, wp_bind]
    have read : readPage successor.pageId t = (.ok successor, t) := by
      unfold readPage
      rw [stored successor mem_cons_self]
    apply wp_of_eq read
    rw [if_neg (not_not.mpr (kind successor mem_cons_self))]
    apply post
    · rfl
    · intro p member
      rcases mem_cons.mp member with rfl | member
      · exact if_pos rfl
      · have other : p.pageId ≠ successor.pageId := fun same => apart (same ▸ mem_map_of_mem member)
        exact (if_neg other).trans (stored p (mem_cons_of_mem _ member))
    · intro a outside
      have other : a ≠ successor.pageId := fun same => outside (same ▸ mem_cons_self)
      exact if_neg other

theorem wp_splitLeaf_chain {left right : List (Bytes × Bytes)} {x : Bytes × Bytes}
    {onOk : Page × Page × Bytes → BTree → Prop} (chain : LeafChain t (before ++ page :: after))
    (next : env.allocator.next t.store.log = some newId) (cut : entriesWith page key value = left ++ x :: right)
    (point : splitPoint (entriesWith page key value) = some left.length)
    (fitsLeft : leafEntriesSize left ≤ leafCapacity) (fitsRight : leafEntriesSize (x :: right) ≤ leafCapacity)
    (post : ∀ leftPage rightPage t', leftPage.leafCells = left → rightPage.leafCells = x :: right →
      leftPage.freeEnd = pageSize - cellsSize left → rightPage.freeEnd = pageSize - cellsSize (x :: right) →
      Divided t t' page leftPage rightPage after newId → onOk (leftPage, rightPage, x.1) t') :
    wp (splitLeaf env page key value) onOk onError t := by
  obtain ⟨-, linked⟩ := (linked_append _ _ _ _).mp chain.linked
  have distinct := chain.distinct
  rw [map_append, map_cons] at distinct
  have distinctAfter := (nodup_cons.mp (nodup_append.mp distinct).2.1).2
  have unused : ∀ p ∈ before ++ page :: after, p.pageId ≠ newId :=
    fun p member same => chain.unused next (same ▸ mem_map_of_mem member)
  have inChain : ∀ p ∈ after, p ∈ before ++ page :: after := fun p member => by simp [member]
  unfold splitLeaf
  simp only [point, wp_bind]
  have allocated : allocatePage env .bTreeLeaf t = (.ok (Page.new .bTreeLeaf newId),
      { t with store := t.store.allocate newId (Page.new .bTreeLeaf newId) }) := by
    unfold allocatePage
    rw [next]
  apply wp_of_eq allocated
  rw [cut, take_left, drop_left, wp_bind]
  apply wp_lift (writeLeafEntries_ok _ fitsLeft)
  rw [wp_bind]
  apply wp_lift (writeLeafEntries_ok _ fitsRight)
  rw [wp_bind, writePage, wp_modify, linked.2.1, wp_bind]
  apply wp_relinkSuccessor_chain (fun p member => chain.kind p (inChain p member))
  · intro p member
    refine (if_neg (unused p (inChain p member))).trans ?_
    exact (if_neg (unused p (inChain p member))).trans (chain.stored p (inChain p member))
  · exact fun p member => chain.real p (inChain p member)
  · exact distinctAfter
  · intro t' log successors others
    refine post _ _ t' rfl rfl rfl rfl ⟨log, ?_, successors, ?_, ⟨rfl, rfl, rfl, rfl⟩, ⟨rfl, rfl, rfl, linked.2.1.symm⟩⟩
    · refine (others newId fun member => ?_).trans (if_pos rfl)
      obtain ⟨p, inAfter, same⟩ := mem_map.mp member
      exact unused p (inChain p inAfter) same
    · intro a notNew outside
      exact (others a outside).trans ((if_neg notNew).trans (if_neg notNew))

theorem Divided.id_mem {left right p : Page} (divided : Divided t t' page left right after newId)
    (member : p ∈ before ++ left :: right :: relinked newId after) :
    p.pageId ∈ (before ++ page :: after).map Page.pageId ∨ p.pageId = newId := by
  simp only [mem_append, mem_cons] at member
  rcases member with member | rfl | rfl | member
  · exact .inl (mem_map_of_mem (by simp [member]))
  · exact .inl (by simp [divided.leftPage.1])
  · exact .inr divided.rightPage.1
  · have inside : p.pageId ∈ after.map Page.pageId := relinked_ids newId after ▸ mem_map_of_mem member
    exact .inl (by simp [inside])

theorem Divided.chain {left right : Page} (divided : Divided t t' page left right after newId)
    (chain : LeafChain t (before ++ page :: after)) (next : env.allocator.next t.store.log = some newId) :
    LeafChain { t' with store := t'.store.write left.pageId left } (before ++ left :: right :: relinked newId after) := by
  obtain ⟨front, prev, forward, back⟩ := (linked_append _ _ _ _).mp chain.linked
  obtain ⟨leftId, leftKind, leftPrev, leftNext⟩ := divided.leftPage
  obtain ⟨rightId, rightKind, rightPrev, rightNext⟩ := divided.rightPage
  have unused := chain.unused next
  have distinct := chain.distinct
  simp only [map_append, map_cons] at unused distinct
  have ids : (before ++ left :: right :: relinked newId after).map Page.pageId =
      before.map Page.pageId ++ page.pageId :: newId :: after.map Page.pageId := by
    simp [leftId, rightId, relinked_ids]
  have apart : page.pageId ∉ before.map Page.pageId ++ after.map Page.pageId :=
    (nodup_cons.mp (nodup_middle.mp distinct)).1
  have stays : ∀ p, p.pageId ≠ page.pageId → t'.store.cells p.pageId = some p →
      (t'.store.write left.pageId left).cells p.pageId = some p := by
    intro p other cell
    exact (if_neg (leftId ▸ other)).trans cell
  constructor
  · refine (linked_append _ _ _ _).mpr ⟨?_, ?_, ?_, ?_, ?_, ?_⟩
    · simpa only [headId, leftId] using front
    · rw [leftPrev, prev]
    · rw [leftNext, headId, rightId]
    · rw [rightPrev, leftId]
    · rw [rightNext, headId_relinked, forward]
    · rw [rightId]
      exact linked_relinked back
  · intro p member
    simp only [mem_append, mem_cons] at member
    rcases member with member | rfl | rfl | member
    · exact chain.kind p (by simp [member])
    · rw [leftKind]
      exact chain.kind page (by simp)
    · exact rightKind
    · exact relinked_kind (fun q inside => chain.kind q (by simp [inside])) p member
  · intro p member
    simp only [mem_append, mem_cons] at member
    rcases member with member | rfl | rfl | member
    · have inside : p.pageId ∈ before.map Page.pageId := mem_map_of_mem member
      have outside : p.pageId ∉ after.map Page.pageId := by
        intro later
        exact (nodup_append.mp distinct).2.2 p.pageId inside p.pageId (mem_cons_of_mem _ later) rfl
      refine stays p (fun same => apart (by simp [← same, inside])) ?_
      rw [divided.others p.pageId (fun same => unused (by simp [← same, inside])) outside]
      exact chain.stored p (by simp [member])
    · exact if_pos rfl
    · refine stays p ?_ (rightId ▸ divided.fresh)
      rw [rightId]
      exact fun same => unused (by simp [same])
    · have inside : p.pageId ∈ after.map Page.pageId := relinked_ids newId after ▸ mem_map_of_mem member
      exact stays p (fun same => apart (by simp [← same, inside])) (divided.successors p member)
  · have rest := nodup_middle.mp distinct
    rw [ids, nodup_middle, nodup_cons, nodup_middle, nodup_cons]
    simp only [mem_append, mem_cons, not_or] at unused apart ⊢
    exact ⟨⟨apart.1, Ne.symm unused.2.1, apart.2⟩, ⟨unused.1, unused.2.2⟩, (nodup_cons.mp rest).2⟩
  · intro p member
    rcases divided.id_mem member with old | new
    · obtain ⟨q, inside, same⟩ := mem_map.mp old
      exact same ▸ chain.real q inside
    · exact new ▸ (env.allocator.valid_next next).1
  · intro p member
    rcases divided.id_mem member with old | new
    · obtain ⟨q, inside, same⟩ := mem_map.mp old
      have live := chain.live q inside
      simp only [write, divided.log, frees_allocate, allocations_allocate, ← same]
      omega
    · have balanced := chain.balanced newId
      simp only [write, divided.log, frees_allocate, allocations_allocate, new, if_pos]
      omega
  · intro pageId
    have balanced := chain.balanced pageId
    simp only [write, divided.log, frees_allocate, allocations_allocate]
    omega

theorem leafPage_of_written {page : Page} (kind : page.pageType = .bTreeLeaf) (filled : page.leafCells ≠ [])
    (sorted : (page.leafCells.map fst).Pairwise (· < ·)) (within : ∀ cell ∈ page.leafCells, CellWithin cell)
    (fits : leafEntriesSize page.leafCells ≤ leafCapacity)
    (end_ : page.freeEnd = pageSize - cellsSize page.leafCells) : LeafPage page := by
  rw [leafEntriesSize_eq] at fits
  simp only [leafCapacity, leafSlotArrayOffset, headerSize, pageSize] at fits
  refine ⟨kind, filled, sorted, within, ?_, ?_⟩
  · simp only [leafSlotsEnd, end_, leafSlotArrayOffset, headerSize, pageSize]
    omega
  · simp only [end_, pageSize]
    omega

/-- The cut that `splitLeaf` finds in the cells with the new one. -/
structure LeafCut (page : Page) (key value : Bytes) (left : List (Bytes × Bytes)) (x : Bytes × Bytes)
    (right : List (Bytes × Bytes)) : Prop where
  cells : entriesWith page key value = left ++ x :: right
  point : splitPoint (entriesWith page key value) = some left.length
  filled : left ≠ []
  placed : ∃ lower upper, page.leafCells = lower ++ upper ∧ left ++ x :: right = lower ++ (key, value) :: upper
  sorted : ((left ++ x :: right).map fst).Pairwise (· < ·)
  within : ∀ cell ∈ left ++ x :: right, CellWithin cell
  fitsLeft : leafEntriesSize left ≤ leafCapacity
  fitsRight : leafEntriesSize (x :: right) ≤ leafCapacity

theorem LeafPage.exists_cut (leaf : LeafPage page) (within : CellWithin (key, value))
    (absent : key ∉ page.leafCells.map fst) : ∃ left x right, LeafCut page key value left x right := by
  obtain ⟨lower, upper, cells, with_, sorted⟩ := leaf.entriesWith absent value
  have allWithin : ∀ cell ∈ lower ++ (key, value) :: upper, CellWithin cell := by
    intro cell member
    rcases mem_append.mp member with member | member
    · exact leaf.within cell (by simp [cells, member])
    · rcases mem_cons.mp member with rfl | member
      · exact within
      · exact leaf.within cell (by simp [cells, member])
  have several : 2 ≤ (lower ++ (key, value) :: upper).length := by
    have filled := length_pos_iff.mpr leaf.filled
    rw [cells, length_append] at filled
    rw [length_append, length_cons]
    omega
  have total : leafEntriesSize (lower ++ (key, value) :: upper) ≤ leafCapacity + 5127 := by
    have size := leaf.size
    have new := within.size
    rw [cells, leafEntriesSize_append] at size
    rw [leafEntriesSize_append, leafEntriesSize_cons]
    omega
  obtain ⟨mid, point⟩ := splitPoint_isSome several (fun cell member => (allWithin cell member).size) total
  obtain ⟨left, right, cut, someLeft, someRight, rfl, fitsLeft, fitsRight⟩ := splitPoint_valid point
  obtain ⟨x, right, rfl⟩ := exists_cons_of_ne_nil someRight
  exact ⟨left, x, right, with_.trans cut, with_ ▸ point, someLeft, ⟨lower, upper, cells, cut.symm⟩, cut ▸ sorted,
    cut ▸ allWithin, fitsLeft, fitsRight⟩

theorem splitLeaf_succeeds (leaf : LeafPage page) (chain : LeafChain t (before ++ page :: after))
    (within : CellWithin (key, value)) (absent : key ∉ page.leafCells.map fst)
    (next : env.allocator.next t.store.log = some newId) :
    ∃ left right separator t', splitLeaf env page key value t = (.ok (left, right, separator), t') ∧
      LeafPage left ∧ LeafPage right ∧
      (∃ lower upper, page.leafCells = lower ++ upper ∧
        left.leafCells ++ right.leafCells = lower ++ (key, value) :: upper) ∧
      ((left.leafCells ++ right.leafCells).map fst).Pairwise (· < ·) ∧
      (∀ cell ∈ left.leafCells, cell.1 < separator) ∧ (∀ cell ∈ right.leafCells, separator ≤ cell.1) ∧
      LeafChain { t' with store := t'.store.write left.pageId left } (before ++ left :: right :: relinked newId after) := by
  obtain ⟨left, x, right, cut⟩ := leaf.exists_cut within absent
  have ran : wp (splitLeaf env page key value) (fun result t' => ∃ leftPage rightPage,
      result = (leftPage, rightPage, x.1) ∧ leftPage.leafCells = left ∧ rightPage.leafCells = x :: right ∧
      leftPage.freeEnd = pageSize - cellsSize left ∧ rightPage.freeEnd = pageSize - cellsSize (x :: right) ∧
      Divided t t' page leftPage rightPage after newId) (fun _ _ => False) t := by
    apply wp_splitLeaf_chain chain next cut.cells cut.point cut.fitsLeft cut.fitsRight
    intro leftPage rightPage t' leftCells rightCells leftEnd rightEnd divided
    exact ⟨leftPage, rightPage, rfl, leftCells, rightCells, leftEnd, rightEnd, divided⟩
  obtain ⟨_, t', returned, leftPage, rightPage, rfl, rfl, rightCells, leftEnd, rightEnd, divided⟩ := ran.exists_ok
  obtain ⟨sortedLeft, sortedRight, across⟩ := pairwise_append.mp (map_append ▸ cut.sorted)
  refine ⟨leftPage, rightPage, x.1, t', returned, ?_, ?_, ?_, ?_, ?_, ?_, divided.chain chain next⟩
  · exact leafPage_of_written (divided.leftPage.2.1.trans leaf.kind) cut.filled sortedLeft
      (fun cell member => cut.within cell (by simp [member])) cut.fitsLeft leftEnd
  · exact leafPage_of_written divided.rightPage.2.1 (by simp [rightCells]) (rightCells ▸ sortedRight)
      (fun cell member => cut.within cell (by simp [← rightCells, member])) (rightCells ▸ cut.fitsRight)
      (rightCells ▸ rightEnd)
  · rw [rightCells]
    exact cut.placed
  · rw [rightCells]
    exact cut.sorted
  · intro cell member
    exact across cell.1 (mem_map_of_mem member) x.1 (by simp)
  · intro cell member
    rw [rightCells] at member
    rcases mem_cons.mp member with rfl | member
    · exact le_rfl
    · exact ((pairwise_cons.mp sortedRight).1 cell.1 (mem_map_of_mem member)).le

def longValue : Bytes := .replicate 4097 0

def fullLeaf : Page :=
  { Page.new .bTreeLeaf 1 with
    leafCells := [([1], longValue), ([3], longValue), ([5], longValue)]
    freeEnd := 4078, nextLeaf := 2 }

def lastLeaf : Page := { Page.new .bTreeLeaf 2 with leafCells := [([7], [0])], freeEnd := 16378, prevLeaf := 1 }

def fullLeafTree : BTree :=
  { store := { cells := fun a => if a = 1 then some fullLeaf else if a = 2 then some lastLeaf else none
               log := [.allocate 2, .allocate 1] }
    rootPageId := 0, rightmostLeaf := none }

theorem fullLeafTree_chain : LeafChain fullLeafTree [fullLeaf, lastLeaf] where
  linked := by simp [Linked, headId, fullLeaf, lastLeaf, Page.new]
  kind := by simp [fullLeaf, lastLeaf, Page.new]
  stored := by simp [fullLeafTree, fullLeaf, lastLeaf, Page.new]
  distinct := by simp [fullLeaf, lastLeaf, Page.new]
  real := by simp [fullLeaf, lastLeaf, Page.new]
  live := by simp [fullLeafTree, fullLeaf, lastLeaf, Page.new, frees, allocations]
  balanced := by simp [fullLeafTree, frees]

theorem fullLeaf_leafPage : LeafPage fullLeaf where
  kind := rfl
  filled := by simp [fullLeaf]
  sorted := by decide +kernel
  within := by decide +kernel
  slots := by decide +kernel
  packed := by decide +kernel

theorem splitLeaf_succeeds_fullLeaf : canInsertLeaf fullLeaf [4] longValue = false ∧
    ∃ left right separator t', splitLeaf fileEnv fullLeaf [4] longValue fullLeafTree =
      (.ok (left, right, separator), t') ∧ LeafPage left ∧ LeafPage right ∧
      (∃ lower upper, fullLeaf.leafCells = lower ++ upper ∧
        left.leafCells ++ right.leafCells = lower ++ ([4], longValue) :: upper) ∧
      ((left.leafCells ++ right.leafCells).map fst).Pairwise (· < ·) ∧
      (∀ cell ∈ left.leafCells, cell.1 < separator) ∧ (∀ cell ∈ right.leafCells, separator ≤ cell.1) ∧
      LeafChain { t' with store := t'.store.write left.pageId left } ([] ++ left :: right :: relinked 3 [lastLeaf]) :=
  ⟨by decide +kernel, splitLeaf_succeeds fullLeaf_leafPage fullLeafTree_chain (by decide +kernel)
    (by decide +kernel) (by decide +kernel)⟩

end

end RedDB.Storage
