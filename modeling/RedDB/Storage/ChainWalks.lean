import RedDB.Allocator.FreeList
import RedDB.Library.Walk
import RedDB.Storage.ValueSpec

namespace RedDB.Storage

open List Library Program Relation Allocator.FreeList

section

variable (cells : Nat → Option Page)

/-- The page the walk goes to from `pageId`, with the payload bytes it passes there. -/
def chainHop (pageId : Nat) : Option (Nat × Nat) :=
  if pageId = 0 then none
  else (cells pageId).bind fun page => (readChainHeader page).toOption

def chainNext (pageId : Nat) : Option Nat := (chainHop cells pageId).map Prod.fst

/-- The links of a read: a page with the number of bytes collected before it. -/
def readNext (total : Nat) (place : Nat × Nat) : Option (Nat × Nat) :=
  (chainHop cells place.1).bind fun (next, len) =>
    if place.2 + len > total then none else some (next, place.2 + len)

end

def endless : BTreeError := .valueLayout (.overflow .endless)

structure Settles {α : Type} (walk : Nat → BTreeM α) (t : BTree) (outcome : Except BTreeError α × BTree) :
    Prop where
  ended : outcome.1 ≠ .error endless
  bound : ∃ rounds, ∀ fuel, rounds ≤ fuel → walk fuel t = outcome

section

variable {α : Type} {t t' : BTree} {walk walk' : Nat → BTreeM α} {outcome : Except BTreeError α × BTree}

theorem Settles.now (ended : outcome.1 ≠ .error endless) (stops : ∀ fuel, walk (fuel + 1) t = outcome) :
    Settles walk t outcome := by
  refine ⟨ended, 1, fun fuel enough => ?_⟩
  obtain ⟨fuel, rfl⟩ := Nat.exists_eq_add_of_le' enough
  exact stops fuel

theorem Settles.later (settles : Settles walk' t' outcome) (goes : ∀ fuel, walk (fuel + 1) t = walk' fuel t') :
    Settles walk t outcome := by
  obtain ⟨ended, rounds, reached⟩ := settles
  refine ⟨ended, rounds + 1, fun fuel enough => ?_⟩
  obtain ⟨fuel, rfl⟩ := Nat.exists_eq_add_of_le' (Nat.le_of_add_left_le enough)
  rw [goes, reached fuel (by omega)]

variable {page : Page} {pageId : Nat}

theorem readWrapped_none (absent : t.store.cells pageId = none) : mapError wrapPager (readPage pageId) t =
      (.error (.valueLayout (.overflow (.pager (.pageNotFound pageId)))), t) := by
  simp [mapError, readPage, absent, wrapPager]

theorem readWrapped_some (held : t.store.cells pageId = some page) :
    mapError wrapPager (readPage pageId) t = (.ok page, t) := by
  simp [mapError, readPage, held]

theorem readChainHeader_error {e : OverflowError} (refused : readChainHeader page = .error e) :
    (.error (.valueLayout (.overflow e)) : Except BTreeError α) ≠ .error endless := by
  unfold readChainHeader at refused
  split_ifs at refused <;> cases refused <;> simp [endless]

theorem chainHop_zero (cells : Nat → Option Page) : chainHop cells 0 = none := if_pos rfl

theorem chainHop_absent {cells : Nat → Option Page} (absent : cells pageId = none) : chainHop cells pageId = none := by
  simp [chainHop, absent]

theorem chainHop_held {cells : Nat → Option Page} (real : pageId ≠ 0) (held : cells pageId = some page) :
    chainHop cells pageId = (readChainHeader page).toOption := by
  simp [chainHop, real, held]

theorem link_of_readNext {cells : Nat → Option Page} {total : Nat} {place next : Nat × Nat}
    (linked : Link (readNext cells total) place next) : Link (chainNext cells) place.1 next.1 := by
  obtain ⟨⟨page, len⟩, passed, onward⟩ := Option.bind_eq_some_iff.mp linked
  dsimp only at onward
  split_ifs at onward
  cases onward
  simp [Link, chainNext, passed]

theorem readChainHeader_ok {next len : Nat} (read : readChainHeader page = .ok (next, len)) :
    page.pageType = .overflow ∧ len = page.payload.length := by
  unfold readChainHeader at read
  split_ifs at read with other
  cases read
  exact ⟨not_not.mp other, rfl⟩

theorem readChain_step (t : BTree) (current total : Nat) (out : Bytes) :
    (readNext t.store.cells total (current, out.length) = none ∧
      ∃ outcome : Except BTreeError Bytes × BTree, outcome.1 ≠ .error endless ∧
        ∀ fuel, readChain (fuel + 1) current total out t = outcome) ∨
    ∃ next more, readNext t.store.cells total (current, out.length) = some (next, more.length) ∧
      ∀ fuel, readChain (fuel + 1) current total out t = readChain fuel next total more t := by
  by_cases tail : current = 0
  · subst tail
    refine .inl ⟨by simp [readNext, chainHop_zero], ?_⟩
    by_cases whole : out.length = total
    · exact ⟨(.ok out, t), by simp, fun fuel => by simp [readChain, whole, pure]⟩
    · exact ⟨(.error (.valueLayout (.overflow (.lengthMismatch total out.length))), t), by simp [endless],
        fun fuel => by simp [readChain, whole, overflowFail, fail]⟩
  · cases held : t.store.cells current with
    | none =>
      refine .inl ⟨by simp [readNext, chainHop_absent held], (.error (.valueLayout (.overflow
        (.pager (.pageNotFound current)))), t), by simp [endless], fun fuel => ?_⟩
      rw [readChain, if_neg tail]
      simp only [bind, readWrapped_none held]
    | some page =>
      have hop := chainHop_held tail held
      cases header : readChainHeader page with
      | error e =>
        refine .inl ⟨by simp [readNext, hop, header, Except.toOption], (.error (.valueLayout (.overflow e)), t),
          readChainHeader_error header, fun fuel => ?_⟩
        rw [readChain, if_neg tail]
        simp only [bind, readWrapped_some held, header]
        rfl
      | ok read =>
        obtain ⟨next, len⟩ := read
        by_cases excess : out.length + len > total
        · refine .inl ⟨by simpa [readNext, hop, header, Except.toOption] using excess,
            (.error (.valueLayout (.overflow (.lengthMismatch total (out.length + len)))), t), by simp [endless],
            fun fuel => ?_⟩
          rw [readChain, if_neg tail]
          simp only [bind, readWrapped_some held, header, if_pos excess]
          rfl
        · have long := (readChainHeader_ok header).2
          refine .inr ⟨next, out ++ page.payload, ?_, fun fuel => ?_⟩
          · simpa [readNext, hop, header, Except.toOption, long] using not_lt.mp (long ▸ excess)
          · rw [readChain, if_neg tail]
            simp only [bind, readWrapped_some held, header, if_neg excess]

theorem freeChain_step (t : BTree) (current : Nat) (first : Bool) :
    (chainNext t.store.cells current = none ∧
      ∃ outcome : Except BTreeError Unit × BTree, outcome.1 ≠ .error endless ∧ outcome.2 = t ∧
        ∀ fuel, freeChain (fuel + 1) current first t = outcome) ∨
    ∃ next, chainNext t.store.cells current = some next ∧
      ∀ fuel, freeChain (fuel + 1) current first t =
        freeChain fuel next false { t with store := t.store.free current } := by
  by_cases tail : current = 0
  · exact .inl ⟨by simp [chainNext, tail, chainHop_zero], (.ok (), t), by simp, rfl, fun fuel => by
      simp [freeChain, tail, pure]⟩
  · cases held : t.store.cells current with
    | none =>
      refine .inl ⟨by simp [chainNext, chainHop_absent held], (.error (.valueLayout (.overflow
        (.pager (.pageNotFound current)))), t), by simp [endless], rfl, fun fuel => ?_⟩
      rw [freeChain, if_neg tail]
      simp only [bind, readWrapped_none held]
    | some page =>
      have hop := chainHop_held tail held
      by_cases kind : page.pageType = .overflow
      · cases header : readChainHeader page with
        | error e =>
          refine .inl ⟨by simp [chainNext, hop, header, Except.toOption], (.error (.valueLayout (.overflow e)), t),
            readChainHeader_error header, rfl, fun fuel => ?_⟩
          rw [freeChain, if_neg tail]
          simp only [bind, readWrapped_some held, kind, ne_eq, not_true, if_false, header]
          rfl
        | ok read =>
          obtain ⟨next, len⟩ := read
          refine .inr ⟨next, by simp [chainNext, hop, header, Except.toOption], fun fuel => ?_⟩
          have unfolded : freeChain (fuel + 1) current first t = (if page.pageType ≠ .overflow then
                overflowFail (if first then .invalidHead current else .notOverflowPage current)
              else do
                freePage current
                freeChain fuel next false) t := by
            rw [freeChain, if_neg tail]
            simp only [bind, readWrapped_some held, header]
          rw [unfolded, if_neg (not_not.mpr kind)]
          rfl
      · refine .inl ⟨by simp [chainNext, hop, readChainHeader, kind, Except.toOption], (.error (.valueLayout (.overflow
          (if first then .invalidHead current else .notOverflowPage current))), t), ?_, rfl, fun fuel => ?_⟩
        · cases first <;> simp [endless]
        · rw [freeChain, if_neg tail]
          simp only [bind, readWrapped_some held, kind, ne_eq, not_false_iff, if_true]
          rfl

end

section

variable {t : BTree} {head : Nat}

theorem finite_chainNext {cells : Nat → Option Page} (finite : {pageId | cells pageId ≠ none}.Finite) :
    {pageId | chainNext cells pageId ≠ none}.Finite := by
  refine finite.subset fun pageId linked absent => linked ?_
  simp [chainNext, chainHop_absent absent]

theorem finite_readNext {cells : Nat → Option Page} (finite : {pageId | cells pageId ≠ none}.Finite) (total : Nat) :
    {place | readNext cells total place ≠ none}.Finite := by
  refine (finite.prod (Set.finite_Iic total)).subset fun place linked => ⟨fun absent => linked ?_, ?_⟩
  · simp [readNext, chainHop_absent absent]
  · by_contra beyond
    refine linked ?_
    simp only [readNext, Option.bind_eq_none_iff]
    intro (next, len) _
    exact if_pos (Nat.lt_add_right len (not_le.mp beyond))

theorem readChain_settles (finite : {pageId | t.store.cells pageId ≠ none}.Finite) (total : Nat) (out : Bytes)
    (straight : Straight (readNext t.store.cells total) (head, out.length)) :
    ∃ outcome, Settles (fun fuel => readChain fuel head total out) t outcome := by
  refine Straight.induction (motive := fun place => ∀ current out, place = (current, List.length out) → ∃ outcome,
    Settles (fun fuel => readChain fuel current total out) t outcome) (finite_readNext finite total) straight ?_
    head out rfl
  rintro _ - ih current out rfl
  rcases readChain_step t current total out with ⟨-, outcome, ended, stops⟩ | ⟨next, more, linked, goes⟩
  · exact ⟨outcome, .now ended stops⟩
  · obtain ⟨outcome, settles⟩ := ih _ linked next more rfl
    exact ⟨outcome, settles.later goes⟩

theorem readChain_endless (total fuel : Nat) (out : Bytes)
    (looped : ¬ Straight (readNext t.store.cells total) (head, out.length)) :
    (readChain fuel head total out t).1 = .error endless := by
  induction fuel generalizing head out with
  | zero => rfl
  | succ fuel ih =>
    obtain ⟨_, onward, still⟩ := exists_link_of_not_straight looped
    rcases readChain_step t head total out with ⟨stops, -⟩ | ⟨next, more, linked, goes⟩
    · cases stops.symm.trans onward
    · cases linked.symm.trans onward
      rw [goes]
      exact ih more still

theorem freeChain_endless {cells : Nat → Option Page} (same : t.store.cells = cells) (fuel : Nat) (first : Bool)
    (looped : ¬ Straight (chainNext cells) head) : (freeChain fuel head first t).1 = .error endless := by
  induction fuel generalizing head first t with
  | zero => rfl
  | succ fuel ih =>
    obtain ⟨_, onward, still⟩ := exists_link_of_not_straight looped
    rcases freeChain_step t head first with ⟨stops, -⟩ | ⟨next, linked, goes⟩
    · rw [same] at stops
      cases stops.symm.trans onward
    · rw [same] at linked
      cases linked.symm.trans onward
      rw [goes]
      exact ih (by exact same) false still

theorem not_settles {α : Type} {walk : Nat → BTreeM α} (looped : ∀ fuel, (walk fuel t).1 = .error endless)
    (outcome : Except BTreeError α × BTree) : ¬ Settles walk t outcome := by
  rintro ⟨ended, rounds, reached⟩
  exact ended (reached rounds le_rfl ▸ looped rounds)

structure FreesOnce (cells : Nat → Option Page) (head : Nat) (first : Bool) (t : BTree)
    (outcome : Except BTreeError Unit × BTree) (freed : List Nat) : Prop where
  settles : Settles (fun fuel => freeChain fuel head first) t outcome
  nodup : freed.Nodup
  reached : ∀ pageId ∈ freed, ReflTransGen (Link (chainNext cells)) head pageId
  log : outcome.2.store.log = freed.reverse.map .free ++ t.store.log

theorem freeChain_settles (finite : {pageId | t.store.cells pageId ≠ none}.Finite)
    (straight : Straight (chainNext t.store.cells) head) (first : Bool) :
    ∃ outcome freed, FreesOnce t.store.cells head first t outcome freed := by
  generalize same : t.store.cells = cells at finite straight
  refine Straight.induction (motive := fun head => ∀ t first, t.store.cells = cells →
    ∃ outcome freed, FreesOnce cells head first t outcome freed) (finite_chainNext finite) straight ?_ t first same
  intro current straight ih t first same
  rcases freeChain_step t current first with ⟨-, outcome, ended, unchanged, stops⟩ | ⟨next, linked, goes⟩
  · exact ⟨outcome, [], .now ended stops, nodup_nil, by simp, by simp [unchanged]⟩
  · rw [same] at linked
    obtain ⟨outcome, freed, once⟩ := ih next linked { t with store := t.store.free current } false same
    refine ⟨outcome, current :: freed, once.settles.later goes, ?_, ?_, ?_⟩
    · refine nodup_cons.mpr ⟨fun member => ?_, once.nodup⟩
      exact straight.not_reached linked (once.reached current member)
    · intro pageId member
      rcases mem_cons.mp member with rfl | member
      · exact .refl
      · exact (once.reached pageId member).head linked
    · rw [once.log]
      simp [Heap.free]

end

section

open Allocator

section

variable (loadPage : Nat → Option PageImage)

/-- `loadFromTrunk` refuses a trunk that names itself and one that lists too many pages. -/
def trunkNext (pageId : Nat) : Option Nat :=
  if pageId = 0 then none
  else
    match loadPage pageId with
    | some (.freelistTrunk trunk) =>
      if trunk.nextTrunk = trunk.pageId ∨ freeIdsPerTrunk < trunk.count then none else some trunk.nextTrunk
    | _ => none

theorem mergeRounds_step (self : FreeList) (reclaimed : List Nat) :
    (trunkNext loadPage self.trunkHead = none ∧
      ∃ outcome, ∀ rounds, FreeList.mergeRounds loadPage (rounds + 1) self reclaimed = some outcome) ∨
    ∃ (loaded : FreeList) (more : List Nat), trunkNext loadPage self.trunkHead = some loaded.trunkHead ∧
      ∀ rounds, FreeList.mergeRounds loadPage (rounds + 1) self reclaimed =
        FreeList.mergeRounds loadPage rounds loaded more := by
  by_cases last : self.trunkHead = 0
  · exact .inl ⟨by simp [trunkNext, last], (.ok reclaimed, self), fun rounds => by simp [FreeList.mergeRounds, last]⟩
  · cases held : loadPage self.trunkHead with
    | none => exact .inl ⟨by simp [trunkNext, held], (.error (.invalidTrunk self.trunkHead), self), fun rounds => by
        simp [FreeList.mergeRounds, last, held]⟩
    | some image =>
      cases load : self.loadFromTrunk image with
      | error e =>
        refine .inl ⟨?_, (.error e, self), fun rounds => by simp [FreeList.mergeRounds, last, held, load]⟩
        cases image with
        | other pageId => simp [trunkNext, held]
        | freelistTrunk trunk =>
          simp only [FreeList.loadFromTrunk] at load
          split_ifs at load with own excess
          · simp [trunkNext, held, own]
          · simp [trunkNext, held, excess]
      | ok answer =>
        obtain ⟨next, loaded⟩ := answer
        refine .inr ⟨loaded, reclaimed ++ [self.trunkHead], ?_, fun rounds => by
          simp [FreeList.mergeRounds, last, held, load]⟩
        cases image with
        | other pageId => cases load
        | freelistTrunk trunk =>
          simp only [FreeList.loadFromTrunk] at load
          split_ifs at load with own excess
          all_goals
            cases load
            simp [trunkNext, last, held, own, excess]

end

variable {loadPage : Nat → Option PageImage} {self : FreeList}

theorem mergeRounds_settles (finite : {pageId | loadPage pageId ≠ none}.Finite)
    (straight : Straight (trunkNext loadPage) self.trunkHead) (reclaimed : List Nat) :
    ∃ outcome bound, ∀ rounds, bound ≤ rounds →
      FreeList.mergeRounds loadPage rounds self reclaimed = some outcome := by
  have linked : {pageId | trunkNext loadPage pageId ≠ none}.Finite := by
    refine finite.subset fun pageId linked absent => linked ?_
    simp [trunkNext, absent]
  refine Straight.induction (motive := fun head => ∀ (self : FreeList) (reclaimed : List Nat), self.trunkHead = head →
    ∃ outcome bound, ∀ rounds, bound ≤ rounds →
      FreeList.mergeRounds loadPage rounds self reclaimed = some outcome) linked straight ?_ self reclaimed rfl
  rintro _ _ ih self reclaimed rfl
  rcases mergeRounds_step loadPage self reclaimed with ⟨-, outcome, stops⟩ | ⟨loaded, more, linked, goes⟩
  · refine ⟨outcome, 1, fun rounds enough => ?_⟩
    obtain ⟨rounds, rfl⟩ := Nat.exists_eq_add_of_le' enough
    exact stops rounds
  · obtain ⟨outcome, bound, reached⟩ := ih loaded.trunkHead linked loaded more rfl
    refine ⟨outcome, bound + 1, fun rounds enough => ?_⟩
    obtain ⟨rounds, rfl⟩ := Nat.exists_eq_add_of_le' (Nat.le_of_add_left_le enough)
    rw [goes, reached rounds (by omega)]

theorem mergeRounds_endless (rounds : Nat) (reclaimed : List Nat)
    (looped : ¬ Straight (trunkNext loadPage) self.trunkHead) :
    FreeList.mergeRounds loadPage rounds self reclaimed = none := by
  induction rounds generalizing self reclaimed with
  | zero => rfl
  | succ rounds ih =>
    obtain ⟨_, onward, still⟩ := exists_link_of_not_straight looped
    rcases mergeRounds_step loadPage self reclaimed with ⟨stops, -⟩ | ⟨loaded, more, linked, goes⟩
    · cases stops.symm.trans onward
    · cases linked.symm.trans onward
      rw [goes]
      exact ih more still

end

/-- In a finite store a read ends exactly if it comes to no page again without having collected a byte in
    between, a free, which frees no page twice, exactly if the chain leads back to no page, and a merge
    exactly if the trunks it accepts lead back to none. -/
theorem chainWalks_end {t : BTree} {head : Nat} {loadPage : Nat → Option Allocator.PageImage}
    {freelist : Allocator.FreeList} (finite : {pageId | t.store.cells pageId ≠ none}.Finite)
    (finiteTrunks : {pageId | loadPage pageId ≠ none}.Finite) :
    (∀ total, (∃ outcome, Settles (fun fuel => readChain fuel head total []) t outcome) ↔
      Straight (readNext t.store.cells total) (head, 0)) ∧
    ((∃ outcome, Settles (fun fuel => freeChain fuel head true) t outcome ∧
      ∃ freed : List Nat, freed.Nodup ∧ outcome.2.store.log = freed.reverse.map .free ++ t.store.log) ↔
      Straight (chainNext t.store.cells) head) ∧
    ((∃ outcome bound, ∀ rounds, bound ≤ rounds → freelist.mergeAllTrunks loadPage rounds = some outcome) ↔
      Straight (trunkNext loadPage) freelist.trunkHead) := by
  refine ⟨fun total => ⟨fun ⟨outcome, settles⟩ => ?_, readChain_settles finite total []⟩,
    ⟨fun ⟨outcome, settles, _⟩ => ?_, fun straight => ?_⟩,
    fun ⟨outcome, bound, reached⟩ => ?_, fun straight => mergeRounds_settles finiteTrunks straight []⟩
  · by_contra looped
    exact not_settles (fun fuel => readChain_endless total fuel [] looped) outcome settles
  · by_contra looped
    exact not_settles (fun fuel => freeChain_endless rfl fuel true looped) outcome settles
  · obtain ⟨outcome, freed, once⟩ := freeChain_settles finite straight true
    exact ⟨outcome, once.settles, freed, once.nodup, once.log⟩
  · by_contra looped
    cases (reached bound le_rfl).symm.trans (mergeRounds_endless bound [] looped)

def linkedStore : BTree := BTree.new fun pageId =>
  if pageId = 2 then some (overflowPage 2 1 [7, 8]) else if pageId = 1 then some (overflowPage 1 0 [9]) else none

def linkedTrunks (pageId : Nat) : Option Allocator.PageImage :=
  if pageId = 4 then some (.freelistTrunk ⟨4, 3, 1, [6]⟩)
  else if pageId = 3 then some (.freelistTrunk ⟨3, 0, 0, []⟩)
  else none

theorem finite_of_two {α : Type} {held : Nat → Option α} (a b : Nat)
    (only : ∀ pageId, pageId ≠ a → pageId ≠ b → held pageId = none) : {pageId | held pageId ≠ none}.Finite := by
  refine (Set.toFinite {a, b}).subset fun pageId some => ?_
  by_contra other
  obtain ⟨notFirst, notSecond⟩ := not_or.mp other
  exact some (only pageId notFirst notSecond)

theorem linkedStore_down (a b : Nat) (linked : Link (chainNext linkedStore.store.cells) a b) : b < a := by
  by_cases first : a = 2
  · subst first
    cases linked
    decide
  by_cases second : a = 1
  · subst second
    cases linked
    decide
  · simp [Link, chainNext, chainHop, linkedStore, BTree.new, first, second] at linked

theorem linkedTrunks_down (a b : Nat) (linked : Link (trunkNext linkedTrunks) a b) : b < a := by
  by_cases first : a = 4
  · subst first
    cases linked
    decide
  by_cases second : a = 3
  · subst second
    cases linked
    decide
  · simp [Link, trunkNext, linkedTrunks, first, second] at linked

/-- The chain of pages 2 and 1 is freed page by page, and both trunks are merged. -/
theorem chainWalks_end_linked :
    (∃ outcome, Settles (fun fuel => freeChain fuel 2 true) linkedStore outcome ∧
      ∃ freed : List Nat, freed.Nodup ∧ outcome.2.store.log = freed.reverse.map .free ++ linkedStore.store.log) ∧
    (∃ outcome bound, ∀ rounds, bound ≤ rounds →
      mergeAllTrunks ⟨4, [], 3, false⟩ linkedTrunks rounds = some outcome) ∧
    ∃ outcome, Settles (fun fuel => readChain fuel 2 3 []) linkedStore outcome := by
  obtain ⟨read, freed, merged⟩ := @chainWalks_end linkedStore 2 linkedTrunks ⟨4, [], 3, false⟩
    (finite_of_two 2 1 fun pageId first second => by simp [linkedStore, BTree.new, first, second])
    (finite_of_two 4 3 fun pageId first second => by simp [linkedTrunks, first, second])
  refine ⟨freed.mpr (.of_rank id linkedStore_down 2), merged.mpr (.of_rank id linkedTrunks_down 4), (read 3).mpr ?_⟩
  exact .of_rank Prod.fst (fun a b linked => linkedStore_down a.1 b.1 (link_of_readNext linked)) _

def loopedStore : BTree := BTree.new fun pageId => if pageId = 1 then some (overflowPage 1 1 []) else none

def loopedTrunks (pageId : Nat) : Option Allocator.PageImage :=
  if pageId = 1 then some (.freelistTrunk ⟨1, 2, 0, []⟩)
  else if pageId = 2 then some (.freelistTrunk ⟨2, 1, 0, []⟩)
  else none

theorem readChain_looped (fuel : Nat) : readChain fuel 1 0 [] loopedStore = (.error endless, loopedStore) := by
  induction fuel with
  | zero => rfl
  | succ fuel ih => exact ih

theorem freeChain_looped (fuel freed : Nat) (first : Bool) (t : BTree) (same : t.store.cells = loopedStore.store.cells)
    (log : t.store.log = List.replicate freed (.free 1)) :
    (freeChain fuel 1 first t).1 = .error endless ∧
      (freeChain fuel 1 first t).2.store.log = List.replicate (fuel + freed) (.free 1) := by
  induction fuel generalizing freed first t with
  | zero => exact ⟨rfl, by simpa [freeChain, overflowFail, fail] using log⟩
  | succ fuel ih =>
    have held : t.store.cells 1 = some (overflowPage 1 1 []) := by rw [same]; rfl
    have round : freeChain (fuel + 1) 1 first t = freeChain fuel 1 false { t with store := t.store.free 1 } := by
      rw [freeChain, if_neg (by decide)]
      simp only [bind, readWrapped_some held]
      rfl
    rw [round, add_assoc, add_comm 1 freed]
    exact ih (freed + 1) false _ same (by rw [replicate_succ, ← log]; rfl)

theorem mergeRounds_looped (rounds : Nat) (self : Allocator.FreeList) (reclaimed : List Nat)
    (inside : self.trunkHead = 1 ∨ self.trunkHead = 2) :
    mergeRounds loopedTrunks rounds self reclaimed = none := by
  induction rounds generalizing self reclaimed with
  | zero => rfl
  | succ rounds ih =>
    rcases inside with first | second
    · simp only [mergeRounds, first]
      exact ih _ _ (.inr rfl)
    · simp only [mergeRounds, second]
      exact ih _ _ (.inl rfl)

/-- No number of rounds ends a walk over the loops, and the page is freed in every round. -/
theorem chainWalks_endless : (∀ fuel, (readChain fuel 1 0 [] loopedStore).1 = .error endless) ∧
    (∀ fuel, (freeChain fuel 1 true loopedStore).1 = .error endless ∧
      frees (freeChain fuel 1 true loopedStore).2.store.log 1 = fuel) ∧
    ∀ rounds, (mergeAllTrunks ⟨1, [], 0, false⟩ loopedTrunks rounds) = none := by
  refine ⟨fun fuel => by rw [readChain_looped], fun fuel => ?_, fun rounds => mergeRounds_looped rounds _ _ (.inl rfl)⟩
  obtain ⟨same, log⟩ := freeChain_looped fuel 0 true loopedStore rfl rfl
  exact ⟨same, by simp [frees, log]⟩

end RedDB.Storage
