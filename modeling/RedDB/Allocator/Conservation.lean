import RedDB.Allocator.Pager
import RedDB.Library.Runs

namespace RedDB.Allocator

open List Library Pager FreeList Program Function

def Linked (pages : Nat → PageImage) : Nat → List Trunk → Prop
  | head, [] => head = 0
  | head, trunk :: rest => head ≠ 0 ∧ trunk.pageId = head ∧ pages head = .freelistTrunk trunk ∧
      Linked pages trunk.nextTrunk rest

def listedIds (trunks : List Trunk) : List Nat := trunks.flatMap Trunk.ids

def hostIds (trunks : List Trunk) : List Nat := trunks.map Trunk.pageId

@[simp] theorem listedIds_cons (trunk : Trunk) (trunks : List Trunk) :
    listedIds (trunk :: trunks) = trunk.ids ++ listedIds trunks := rfl

@[simp] theorem hostIds_cons (trunk : Trunk) (trunks : List Trunk) :
    hostIds (trunk :: trunks) = trunk.pageId :: hostIds trunks := rfl

theorem Linked.frame {pages other : Nat → PageImage} {head : Nat} {trunks : List Trunk}
    (linked : Linked pages head trunks) (same : ∀ id ∈ hostIds trunks, other id = pages id) :
    Linked other head trunks := by
  induction trunks generalizing head with
  | nil => exact linked
  | cons trunk rest ih =>
    obtain ⟨nonzero, host, image, linkedRest⟩ := linked
    refine ⟨nonzero, host, ?_, ih linkedRest fun id member => same id (mem_cons_of_mem _ member)⟩
    rw [← image, ← host]
    exact same _ mem_cons_self

/-- In how many places the page is: handed out, waiting for deferred publication, in the in-memory free
    list, listed in a trunk, and a trunk itself. -/
def places (pager : Pager) (live : List Nat) (trunks : List Trunk) (id : Nat) : Nat :=
  live.count id + pager.deferred.pending.count id + pager.freelist.freePages.count id +
    (listedIds trunks).count id + (hostIds trunks).count id

structure Conserved (pager : Pager) (live : List Nat) (trunks : List Trunk) : Prop where
  linked : Linked pager.pages pager.freelist.trunkHead trunks
  once : ∀ id, places pager live trunks id = if firstAllocatablePage ≤ id ∧ id < pager.pageCount then 1 else 0
  counted : pager.freelist.totalFree = pager.freelist.freePages.length + (listedIds trunks).length
  extent : firstAllocatablePage ≤ pager.pageCount

section

variable {pager : Pager} {live : List Nat} {trunks : List Trunk}

theorem Conserved.places_le (conserved : Conserved pager live trunks) (id : Nat) :
    places pager live trunks id ≤ 1 := by
  rw [conserved.once]
  split_ifs <;> omega

variable {id : Nat}

theorem Conserved.fresh (conserved : Conserved pager (id :: live) trunks) : id ∉ live := by
  intro member
  have bound := conserved.places_le id
  have held := count_pos_iff.mpr member
  simp only [places, count_cons_self] at bound
  omega

theorem Conserved.live_not_host (conserved : Conserved pager live trunks) (member : id ∈ live) :
    id ∉ hostIds trunks := by
  intro host
  have bound := conserved.places_le id
  have held := count_pos_iff.mpr member
  have hosted := count_pos_iff.mpr host
  simp only [places] at bound
  omega

theorem Conserved.repaint (conserved : Conserved pager live trunks) {pages : Nat → PageImage}
    (same : ∀ id ∈ hostIds trunks, pages id = pager.pages id) :
    Conserved { pager with pages := pages } live trunks :=
  ⟨conserved.linked.frame same, conserved.once, conserved.counted, conserved.extent⟩

theorem takeInMemory_spec (conserved : Conserved pager live trunks) :
    takeInMemory.wp (fun id after => Conserved after (id :: live) trunks)
      (fun _ after => Conserved after live trunks) pager := by
  unfold takeInMemory allocate
  simp only [wp_bind, wp_read]
  cases last : pager.freelist.freePages.getLast? with
  | none => exact conserved
  | some id =>
    have split := (dropLast_append_getLast? id last).symm
    have counted := conserved.counted
    refine ⟨conserved.linked, fun other => ?_, ?_, conserved.extent⟩
    · have once := conserved.once other
      simp only [places] at once ⊢
      rw [split, count_append] at once
      simp only [count_cons, count_nil] at once ⊢
      omega
    · rw [split, length_append, length_singleton] at counted
      simp only
      omega

theorem extendBy_spec (conserved : Conserved pager live trunks) (n : Nat) (message : String) : (extendBy n message).wp
      (fun start after => start = pager.pageCount ∧ Conserved after (List.range' start n ++ live) trunks)
      (fun _ after => Conserved after live trunks) pager := by
  unfold extendBy
  simp only [wp_bind, wp_read]
  split_ifs with excess
  · exact conserved
  · refine ⟨rfl, conserved.linked, fun id => ?_, conserved.counted, ?_⟩
    · have once := conserved.once id
      have extent := conserved.extent
      simp only [places, count_append] at once ⊢
      by_cases new : pager.pageCount ≤ id ∧ id < pager.pageCount + n
      · have counted : (List.range' pager.pageCount n).count id = 1 :=
          count_eq_one_of_mem (nodup_range' _) (mem_range'_1.mpr new)
        rw [counted]
        rw [if_neg (by omega)] at once
        rw [if_pos (by omega)]
        omega
      · have absent : (List.range' pager.pageCount n).count id = 0 :=
          count_eq_zero_of_not_mem fun member => new (mem_range'_1.mp member)
        rw [absent]
        split_ifs at once ⊢ <;> omega
    · have extent := conserved.extent
      simp only
      omega

variable {trunk : Trunk}

section

variable (conserved : Conserved pager live (trunk :: trunks))
include conserved

theorem Conserved.loaded {next : Option Nat} {freelist : FreeList}
    (loaded : pager.freelist.loadFromTrunk (.freelistTrunk trunk) = .ok (next, freelist)) :
    Conserved { pager with freelist := freelist, freelistHead := freelist.trunkHead } live trunks := by
  obtain ⟨-, -, -, linked⟩ := conserved.linked
  have counted := conserved.counted
  obtain ⟨-, rfl⟩ := loadFromTrunk_ok loaded
  refine ⟨linked, fun id => ?_, ?_, conserved.extent⟩
  · have once := conserved.once id
    simp only [places, listedIds_cons, hostIds_cons, count_append, count_cons, count_nil] at once ⊢
    omega
  · simp only [listedIds_cons, length_append, length_singleton] at counted ⊢
    omega

theorem takeLoaded_spec : (takeLoaded (.freelistTrunk trunk)).wp (fun id after => Conserved after (id :: live) trunks)
      (fun _ after => ∃ left, Conserved after live left) pager := by
  unfold takeLoaded load
  simp only [wp_bind, wp_read]
  cases loads : pager.freelist.loadFromTrunk (.freelistTrunk trunk) with
  | error error => exact ⟨_, conserved⟩
  | ok loaded =>
    obtain ⟨next, freelist⟩ := loaded
    exact (takeInMemory_spec (conserved.loaded loads)).mono (fun _ _ held => held) fun _ _ held => ⟨_, held⟩

theorem Conserved.edited (last : trunk.ids.getLast? = some id) : Conserved
      { pager with
        pages := update pager.pages trunk.pageId
          (.freelistTrunk { trunk with count := trunk.ids.length - 1 })
        freelist := pager.freelist.noteDurableTrunkAllocation (trunk.ids.length - 1) }
      (id :: live) ({ trunk with count := trunk.ids.length - 1 } :: trunks) := by
  have split := (dropLast_append_getLast? id last).symm
  have length : trunk.ids.length = trunk.ids.dropLast.length + 1 := by
    rw [split]
    simp
  have ids : ({ trunk with count := trunk.ids.length - 1 } : Trunk).ids = trunk.ids.dropLast := by
    rw [dropLast_eq_take]
    simp only [Trunk.ids, take_take, length_take]
    congr 1
    omega
  obtain ⟨nonzero, host, -, linked⟩ := conserved.linked
  have apart : trunk.pageId ∉ hostIds trunks := by
    intro member
    have bound := conserved.places_le trunk.pageId
    have held := count_pos_iff.mpr member
    simp only [places, hostIds_cons, count_cons_self] at bound
    omega
  refine ⟨⟨nonzero, host, ?_, ?_⟩, fun other => ?_, ?_, conserved.extent⟩
  · rw [noteDurableTrunkAllocation, ← host]
    exact update_self ..
  · refine linked.frame fun other member => update_of_ne ?_ _ _
    rintro rfl
    exact apart member
  · have once := conserved.once other
    simp only [places, listedIds_cons, hostIds_cons, ids, count_append] at once ⊢
    rw [split, count_append] at once
    simp only [noteDurableTrunkAllocation, count_cons, count_nil] at once ⊢
    omega
  · have counted := conserved.counted
    simp only [listedIds_cons, ids, length_append, noteDurableTrunkAllocation] at counted ⊢
    omega

theorem allocateUnjournaledTrunk_spec :
    (allocateUnjournaledTrunk trunk).wp (fun id after => ∃ left, Conserved after (id :: live) left)
      (fun _ after => ∃ left, Conserved after live left) pager := by
  unfold allocateUnjournaledTrunk
  cases last : trunk.ids.getLast? with
  | some id => exact ⟨_, conserved.edited last⟩
  | none => exact (takeLoaded_spec conserved).mono (fun _ _ held => ⟨_, held⟩) fun _ _ held => held

end

theorem readTrunk_spec {trunkId : Nat} : (readTrunk trunkId).wp
      (fun trunk after => after = pager ∧ pager.pages trunkId = .freelistTrunk trunk) (fun _ after => after = pager)
      pager := by
  unfold readTrunk load invalid
  simp only [wp_bind, wp_read]
  split_ifs with misdirected
  · rfl
  · simp only [wp_bind]
    cases FreeList.new.loadFromTrunk (pager.pages trunkId) with
    | error error => rfl
    | ok loaded =>
      cases image : pager.pages trunkId with
      | other pageId => exact rfl
      | freelistTrunk trunk =>
        simp only [wp_pure]
        split_ifs
        · exact ⟨rfl, rfl⟩
        · rfl

section

variable (conserved : Conserved pager live trunks) (journaled : Bool)
include conserved journaled

theorem allocateFromTrunk_spec (loads : pager.freelist.trunkHead ≠ 0) :
    (allocateFromTrunk journaled pager.freelist.trunkHead).wp
      (fun id after => ∃ left, Conserved after (id :: live) left)
      (fun _ after => ∃ left, Conserved after live left) pager := by
  unfold allocateFromTrunk
  refine readTrunk_spec.bind ?_ ?_
  · rintro trunk _ ⟨rfl, image⟩
    cases trunks with
    | nil => exact absurd conserved.linked loads
    | cons first rest =>
      obtain ⟨-, -, same, -⟩ := conserved.linked
      rw [same] at image
      cases image
      split_ifs
      · exact (takeLoaded_spec conserved).mono (fun _ _ held => ⟨_, held⟩) fun _ _ held => held
      · exact allocateUnjournaledTrunk_spec conserved
  · rintro _ _ rfl
    exact ⟨trunks, conserved⟩

theorem takePageId_spec : (takePageId journaled).wp (fun id after => ∃ left, Conserved after (id :: live) left)
      (fun _ after => ∃ left, Conserved after live left) pager := by
  unfold takePageId
  simp only [wp_bind, wp_read]
  cases pager.freelist.nextInMemoryPage with
  | some next =>
    exact (takeInMemory_spec conserved).mono (fun _ _ held => ⟨_, held⟩) fun _ _ held => ⟨_, held⟩
  | none =>
    simp only
    split_ifs with loads
    · exact allocateFromTrunk_spec conserved journaled loads
    · exact (extendBy_spec conserved 1 _).mono (fun _ _ held => ⟨_, held.2⟩) fun _ _ held => ⟨_, held⟩

end

theorem ensureWritable_spec :
    ensureWritable.wp (fun _ after => after = pager) (fun _ after => after = pager) pager := by
  unfold ensureWritable
  simp only [wp_bind, wp_read]
  split_ifs <;> rfl

section

variable (conserved : Conserved pager live trunks)
include conserved

theorem allocatePage_spec (journaled : Bool) :
    (allocatePage journaled).wp (fun id after => ∃ left, Conserved after (id :: live) left)
      (fun _ after => ∃ left, Conserved after live left) pager := by
  unfold allocatePage
  refine ensureWritable_spec.bind ?_ ?_
  · rintro _ _ rfl
    refine (takePageId_spec conserved journaled).bind ?_ fun _ _ held => held
    rintro id after ⟨left, held⟩
    refine ⟨left, held.repaint fun other member => update_of_ne ?_ _ _⟩
    rintro rfl
    exact held.live_not_host mem_cons_self member
  · rintro _ _ rfl
    exact ⟨trunks, conserved⟩

theorem reserveContigExtent_spec (nPages : Nat) :
    (reserveContigExtent nPages).wp (fun extent after => Conserved after (extent.pages ++ live) trunks)
      (fun _ after => Conserved after live trunks) pager := by
  unfold reserveContigExtent
  refine ensureWritable_spec.bind ?_ ?_
  · rintro _ _ rfl
    split_ifs with none
    · exact conserved
    · refine (extendBy_spec conserved nPages _).bind ?_ fun _ _ held => held
      rintro start after ⟨-, held⟩
      refine held.repaint fun id member => if_neg fun inside => ?_
      have reserved : id ∈ List.range' start nPages ++ live := mem_append_left _ (mem_range'_1.mpr inside)
      exact held.live_not_host reserved member
  · rintro _ _ rfl
    exact conserved

theorem Conserved.live_alone (member : id ∈ live) : live.count id = 1 ∧ pager.deferred.pending.count id = 0 := by
  have bound := conserved.places_le id
  have held := count_pos_iff.mpr member
  simp only [places] at bound
  omega

theorem Conserved.exchange {after : Pager} {left : List Nat}
    (same : after.freelist.trunkHead = pager.freelist.trunkHead ∧ after.pageCount = pager.pageCount)
    (pages : ∀ id ∈ hostIds trunks, after.pages id = pager.pages id)
    (exchanged : ∀ id, left.count id + after.deferred.pending.count id + after.freelist.freePages.count id =
      live.count id + pager.deferred.pending.count id + pager.freelist.freePages.count id)
    (counted : after.freelist.totalFree + pager.freelist.freePages.length =
      pager.freelist.totalFree + after.freelist.freePages.length) : Conserved after left trunks := by
  obtain ⟨head, count⟩ := same
  refine ⟨?_, fun id => ?_, ?_, ?_⟩
  · rw [head]
    exact conserved.linked.frame pages
  · have once := conserved.once id
    have moved := exchanged id
    rw [count, ← once]
    simp only [places]
    omega
  · have before := conserved.counted
    omega
  · rw [count]
    exact conserved.extent

theorem freePage_spec (stored : Nat → PageImage) (member : id ∈ live) :
    (freePage stored id).wp (fun _ after => Conserved after (live.erase id) trunks)
      (fun _ after => Conserved after live trunks) pager := by
  obtain ⟨alone, unpending⟩ := conserved.live_alone member
  have absent := count_eq_zero.mp unpending
  have erased (other : Nat) : (live.erase id).count other + [id].count other = live.count other := by
    rw [count_erase, count_singleton]
    by_cases same : id = other
    · subst same
      simp [alone]
    · simp [same]
  unfold freePage
  refine ensureWritable_spec.bind ?_ ?_
  · rintro _ _ rfl
    simp only [wp_bind, wp_read]
    split_ifs with enabled outside
    · exact conserved
    · refine conserved.exchange ⟨rfl, rfl⟩ (fun _ _ => rfl) (fun other => ?_) rfl
      have moved := erased other
      simp only [insert_of_not_mem absent, count_cons, count_nil] at moved ⊢
      omega
    · refine conserved.exchange ⟨rfl, rfl⟩ (fun other host => if_neg ?_) (fun other => ?_) ?_
      · rintro same
        rw [mem_singleton.mp same] at host
        exact conserved.live_not_host member host
      · have moved := erased other
        simp only [free, count_append] at moved ⊢
        omega
      · simp only [free, length_append, length_singleton]
        omega
  · rintro _ _ rfl
    exact conserved

end

variable {retired : List Nat}

theorem checkTrunks_apart {fuel : Nat} {visited : List Nat} {head : Nat}
    (linked : Linked pager.pages head trunks) (checked : pager.checkTrunks retired fuel visited head = .ok ())
    (member : id ∈ retired) : id ∉ listedIds trunks ∧ id ∉ hostIds trunks := by
  induction fuel generalizing visited head trunks with
  | zero => cases checked
  | succ fuel ih =>
    cases trunks with
    | nil => exact ⟨not_mem_nil, not_mem_nil⟩
    | cons trunk rest =>
      obtain ⟨nonzero, host, image, linkedRest⟩ := linked
      have some_retired : retired ≠ [] := ne_nil_of_mem member
      simp only [checkTrunks, nonzero, some_retired, or_self, if_false, image] at checked
      split_ifs at checked
      cases loads : FreeList.new.loadFromTrunk (.freelistTrunk trunk) with
      | error error => simp [loads] at checked
      | ok loaded =>
        obtain ⟨next, freelist⟩ := loaded
        obtain ⟨following, pages⟩ := loadFromTrunk_ok loads
        simp only [loads] at checked
        split_ifs at checked with outside contained
        rw [following] at checked
        obtain ⟨unlisted, unhosted⟩ := ih linkedRest checked
        have apart : id ∉ freelist.freePages := by
          intro held
          apply contained
          exact any_eq_true.mpr ⟨id, held, by simpa using member⟩
        rw [pages] at apart
        simp only [FreeList.new, nil_append, mem_append, mem_singleton, not_or] at apart
        simp only [listedIds_cons, hostIds_cons, mem_append, mem_cons, not_or]
        exact ⟨⟨apart.2, unlisted⟩, apart.1, unhosted⟩

theorem retired_outside (conserved : Conserved pager live trunks)
    (inside : retired.all pager.inRange = true) (unloaded : pager.freelist.containsAny retired = false)
    (checked : pager.checkTrunks retired (pager.pageCount + 1) [] pager.freelist.trunkHead = .ok ())
    (member : id ∈ retired) :
    live.count id + pager.deferred.pending.count id = 1 ∧ id ∉ hostIds trunks := by
  obtain ⟨unlisted, unhosted⟩ := checkTrunks_apart conserved.linked checked member
  have range := all_eq_true.mp inside id member
  simp only [inRange, Bool.and_eq_true, decide_eq_true_eq] at range
  have notFree : id ∉ pager.freelist.freePages := by
    intro held
    rw [containsAny, any_eq_false] at unloaded
    exact unloaded id held (by simpa using member)
  have once := conserved.once id
  simp only [places, if_pos range, count_eq_zero.mpr notFree, count_eq_zero.mpr unlisted,
    count_eq_zero.mpr unhosted] at once
  exact ⟨by omega, unhosted⟩

theorem count_filter_not_mem (pages removed : List Nat) (id : Nat) :
    (pages.filter (· ∉ removed)).count id = if id ∈ removed then 0 else pages.count id := by
  split_ifs with gone
  · refine count_eq_zero.mpr fun member => ?_
    have kept := of_mem_filter member
    simp [gone] at kept
  · exact count_filter (by simpa using gone)

def dropPending (released : List Nat) (pager : Pager) : Pager :=
  { pager with deferred := { pager.deferred with pending := pager.deferred.pending.filter (· ∉ released) } }

section

variable (conserved : Conserved pager live trunks) (stored : Nat → PageImage)
include conserved stored

theorem freeRetiredPages_spec (retired : List Nat) : (freeRetiredPages stored retired).wp
      (fun _ after => after.deferred = pager.deferred ∧
        Conserved (dropPending retired after) (live.filter (· ∉ retired)) trunks)
      (fun _ after => after = pager) pager := by
  unfold freeRetiredPages
  refine ensureWritable_spec.bind ?_ fun _ _ held => held
  rintro _ _ rfl
  simp only [wp_bind, wp_read]
  split_ifs with outside distinct loaded
  · rfl
  · rfl
  · cases checked : checkTrunks _ retired _ [] _ with
    | error error => rfl
    | ok =>
      have inside := Bool.not_eq_false _ ▸ outside
      have unloaded := Bool.not_eq_true _ ▸ loaded
      refine ⟨rfl, conserved.exchange ⟨rfl, rfl⟩ (fun id host => if_neg fun member => ?_) (fun id => ?_) ?_⟩
      · exact (retired_outside conserved inside unloaded checked member).2 host
      · simp only [dropPending, freeBatch, count_filter_not_mem, count_append]
        by_cases member : id ∈ retired
        · have held := (retired_outside conserved inside unloaded checked member).1
          have single := count_eq_one_of_mem distinct member
          simp only [member, if_true]
          omega
        · have none := count_eq_zero.mpr member
          simp only [member, if_false]
          omega
      · simp only [dropPending, freeBatch, length_append]
        omega
  · rfl

theorem completeDeferredPublication_spec (retained released : List Nat) :
    (completeDeferredPublication stored retained released).wp
      (fun _ after => Conserved after (live.filter (· ∉ released)) trunks) (fun _ after => after = pager) pager := by
  have freed : (freeReleased stored released).wp
      (fun _ after => Conserved (dropPending released after) (live.filter (· ∉ released)) trunks)
      (fun _ after => after = pager) pager := by
    unfold freeReleased
    split_ifs with some_released
    · exact (freeRetiredPages_spec conserved stored released).mono (fun _ _ held => held.2) fun _ _ held => held
    · rw [not_not.mp some_released]
      simpa [dropPending] using conserved
  unfold completeDeferredPublication
  refine freed.bind (fun _ after held => ?_) fun _ _ held => held
  exact held.exchange ⟨rfl, rfl⟩ (fun _ _ => rfl) (fun _ => rfl) rfl

theorem freeRetiredPages_kept (unpending : ∀ id ∈ retired, id ∉ pager.deferred.pending) :
    (freeRetiredPages stored retired).wp
      (fun _ after => Conserved after (live.filter (· ∉ retired)) trunks) (fun _ after => after = pager) pager := by
  refine (freeRetiredPages_spec conserved stored retired).mono ?_ fun _ _ held => held
  rintro _ after ⟨deferred, held⟩
  have kept : dropPending retired after = after := by
    have whole : pager.deferred.pending.filter (· ∉ retired) = pager.deferred.pending :=
      filter_eq_self.mpr fun id member => by
        simpa using fun gone => unpending id gone member
    rw [dropPending, deferred, whole, ← deferred]
  rw [kept] at held
  exact held

end

end

section

section

variable (freelist : FreeList)

def freeCount (trunks : List Trunk) (id : Nat) : Nat :=
  freelist.freePages.count id + (listedIds trunks).count id + (hostIds trunks).count id

structure Spilled (pages : Nat → PageImage) (freelist : FreeList) (trunks : List Trunk) : Prop where
  linked : Linked pages freelist.trunkHead trunks
  distinct : ∀ id, freeCount freelist trunks id ≤ 1
  nonzero : 0 ∉ freelist.freePages
  counted : freelist.totalFree = freelist.freePages.length + (listedIds trunks).length

theorem createTrunk_ids (host next : Nat) :
    (freelist.createTrunk host next).1.ids.reverse =
      freelist.freePages.drop (freelist.freePages.length - min freelist.freePages.length freeIdsPerTrunk) := by
  simp only [createTrunk, Trunk.ids]
  rw [take_of_length_le, reverse_reverse]
  simp only [length_reverse, length_drop]
  omega

def spill (host : Nat) : Trunk × FreeList :=
  createTrunk
    { freelist with freePages := freelist.freePages.dropLast, totalFree := freelist.totalFree - 1 }
    host freelist.trunkHead

end

variable {pages : Nat → PageImage} {freelist : FreeList} {trunks : List Trunk}

theorem spill_split {host : Nat} (last : freelist.freePages.getLast? = some host) :
    freelist.freePages = (spill freelist host).2.freePages ++ (spill freelist host).1.ids.reverse ++ [host] := by
  rw [spill, createTrunk_ids]
  simp only [createTrunk, take_append_drop]
  exact (dropLast_append_getLast? host last).symm

theorem Spilled.round (spilled : Spilled pages freelist trunks) {host : Nat}
    (last : freelist.freePages.getLast? = some host) :
    Spilled (update pages host (.freelistTrunk (spill freelist host).1))
        { (spill freelist host).2 with trunkHead := host } ((spill freelist host).1 :: trunks) ∧
      ∀ id, freeCount { (spill freelist host).2 with trunkHead := host } ((spill freelist host).1 :: trunks) id =
        freeCount freelist trunks id := by
  have split := spill_split last
  have hosted : (spill freelist host).1.pageId = host := rfl
  have same (id : Nat) :
      freeCount { (spill freelist host).2 with trunkHead := host } ((spill freelist host).1 :: trunks) id =
        freeCount freelist trunks id := by
    simp only [freeCount, listedIds_cons, hostIds_cons, hosted]
    rw [split]
    simp only [count_append, count_reverse, count_cons, count_nil]
    omega
  have apart : host ∉ hostIds trunks := by
    intro member
    have bound := spilled.distinct host
    have held := count_pos_iff.mpr member
    rw [freeCount, split, count_append, count_singleton_self] at bound
    omega
  refine ⟨⟨⟨?_, hosted, update_self .., ?_⟩, fun id => ?_, fun zero => ?_, ?_⟩, same⟩
  · rintro rfl
    exact spilled.nonzero (mem_of_getLast? last)
  · refine spilled.linked.frame fun other member => update_of_ne ?_ _ _
    rintro rfl
    exact apart member
  · rw [same id]
    exact spilled.distinct id
  · refine spilled.nonzero ?_
    rw [split]
    exact mem_append_left _ (mem_append_left _ zero)
  · have counted := spilled.counted
    have total : (spill freelist host).2.totalFree = freelist.totalFree - 1 := rfl
    have lengths := congrArg List.length split
    simp only [length_append, length_reverse, length_singleton] at lengths
    simp only [listedIds_cons, length_append, total]
    omega

theorem Spilled.rounds (rounds : Nat) (spilled : Spilled pages freelist trunks) :
    Spilled (writeTrunks pages (flushRounds rounds freelist).1)
        (flushRounds rounds freelist).2 ((flushRounds rounds freelist).1.reverse ++ trunks) ∧
      ∀ id, freeCount (flushRounds rounds freelist).2
          ((flushRounds rounds freelist).1.reverse ++ trunks) id = freeCount freelist trunks id := by
  induction rounds generalizing pages freelist trunks with
  | zero => exact ⟨spilled, fun _ => rfl⟩
  | succ rounds ih =>
    simp only [flushRounds]
    cases last : freelist.freePages.getLast? with
    | none => exact ⟨spilled, fun _ => rfl⟩
    | some host =>
      obtain ⟨later, same⟩ := spilled.round last
      obtain ⟨final, kept⟩ := ih later
      simp only [reverse_cons, append_assoc]
      exact ⟨final, fun id => (kept id).trans (same id)⟩

theorem flush_spec {pager : Pager} {live : List Nat} (conserved : Conserved pager live trunks) :
    flush.wp (fun _ after => ∃ left, Conserved after live left) (fun _ _ => False) pager := by
  unfold flush
  simp only [wp_bind, wp_read]
  split_ifs with dirty
  · have zero := conserved.once 0
    have spilled : Spilled pager.pages pager.freelist trunks := by
      refine ⟨conserved.linked, fun id => ?_, fun member => ?_, conserved.counted⟩
      · have bound := conserved.places_le id
        simp only [places] at bound
        simp only [freeCount]
        omega
      · have held := count_pos_iff.mpr member
        rw [if_neg (by simp [firstAllocatablePage])] at zero
        simp only [places] at zero
        omega
    obtain ⟨flushed, same⟩ := spilled.rounds pager.freelist.freePages.length
    refine ⟨_, flushed.linked, fun id => ?_, flushed.counted, conserved.extent⟩
    have once := conserved.once id
    have kept := same id
    simp only [places] at once ⊢
    simp only [freeCount] at kept
    rw [← once]
    simp only [markClean, flushToTrunks]
    omega
  · exact ⟨trunks, conserved⟩

end

end RedDB.Allocator
