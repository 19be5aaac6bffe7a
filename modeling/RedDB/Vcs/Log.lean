import Mathlib

namespace RedDB.Vcs

open List

structure Commit where
  hash : String
  parents : List String
  height : Nat
  timestampMs : Int
  deriving DecidableEq

structure LogRange where
  lower : Option String
  limit : Option Nat
  skip : Option Nat
  noMerges : Bool

section

variable (store : List Commit)

section

variable (visited : List String) (hash : String)

def loadCommit : Option Commit := store.find? (·.hash == hash)

def parentsOf : List String := ((loadCommit store hash).map (·.parents)).getD []

/-- The last of the unvisited parents is on top. -/
def pushParents (hash : String) (stack : List String) : List String :=
  ((parentsOf store hash).filter (· ∉ visited)).reverse ++ stack

/-- An iteration of a walk loads one of these commits or leaves a shorter stack. -/
def unseen : Nat := (store.filter (·.hash ∉ visited)).length

end

variable {store} {visited stack : List String} {hash : String} {commit : Commit}

theorem loadCommit_some (loaded : loadCommit store hash = some commit) : commit ∈ store ∧ commit.hash = hash :=
  ⟨mem_of_find?_eq_some loaded, by simpa using find?_some loaded⟩

theorem unseen_lt (fresh : hash ∉ visited) (loaded : loadCommit store hash = some commit) :
    unseen store (hash :: visited) < unseen store visited := by
  obtain ⟨stored, rfl⟩ := loadCommit_some loaded
  have part : store.filter (·.hash ∉ commit.hash :: visited) =
      (store.filter (·.hash ∉ visited)).filter (·.hash ≠ commit.hash) := by
    rw [filter_filter]
    simp
  rw [unseen, part]
  exact length_filter_lt_length_iff_exists.mpr ⟨commit, mem_filter.mpr ⟨stored, by simpa using fresh⟩, by simp⟩

theorem popped : Prod.Lex (· < ·) (· < ·) (unseen store (hash :: visited), stack.length)
    (unseen store visited, (hash :: stack).length) := by
  have fewer : unseen store (hash :: visited) ≤ unseen store visited := by
    refine Sublist.length_le (monotone_filter_right _ fun commit => ?_)
    simp only [mem_cons, not_or, decide_eq_true_eq]
    exact And.right
  rcases fewer.lt_or_eq with fewer | same
  · exact .left _ _ fewer
  · rw [same]
    exact .right _ (Nat.lt_succ_self _)

theorem pushed (fresh : hash ∉ visited) : Prod.Lex (· < ·) (· < ·)
    (unseen store (hash :: visited), (pushParents store (hash :: visited) hash stack).length)
    (unseen store visited, (hash :: stack).length) := by
  cases loaded : loadCommit store hash with
  | none => simpa [pushParents, parentsOf, loaded] using popped
  | some commit => exact .left _ _ (unseen_lt fresh loaded)

variable (store)

def ancestorLoop (maxSteps : Nat) (visited stack : List String) (steps : Nat) : List String :=
  match stack with
  | [] => visited
  | hash :: stack =>
    if hash ∈ visited then ancestorLoop maxSteps visited stack steps
    else if maxSteps ≤ steps + 1 then hash :: visited
    else ancestorLoop maxSteps (hash :: visited) (pushParents store (hash :: visited) hash stack) (steps + 1)
  termination_by (unseen store visited, stack.length)
  decreasing_by
  · exact .right _ (Nat.lt_succ_self _)
  · exact pushed ‹_›

def ancestorSet (start : String) (maxSteps : Nat) : List String := ancestorLoop store maxSteps [] [start] 0

def topoLoop (exclude : List String) (range : LogRange) (visited stack : List String) (skipped : Nat)
    (out : List Commit) : List Commit :=
  match stack with
  | [] => out
  | hash :: stack =>
    if hash ∈ visited then topoLoop exclude range visited stack skipped out
    else if hash ∈ exclude then topoLoop exclude range (hash :: visited) stack skipped out
    else
      match loadCommit store hash with
      | none => topoLoop exclude range (hash :: visited) stack skipped out
      | some commit =>
        let stack := pushParents store (hash :: visited) hash stack
        if range.noMerges ∧ 1 < commit.parents.length then
          topoLoop exclude range (hash :: visited) stack skipped out
        else if skipped < range.skip.getD 0 then topoLoop exclude range (hash :: visited) stack (skipped + 1) out
        else if range.limit.any (· ≤ out.length) then out
        else topoLoop exclude range (hash :: visited) stack skipped (out ++ [commit])
  termination_by (unseen store visited, stack.length)
  decreasing_by
  · exact .right _ (Nat.lt_succ_self _)
  · exact popped
  · exact popped
  all_goals exact pushed ‹_›

/-- Highest height first, and of equal heights the latest. -/
def newestFirst (a b : Commit) : Prop := b.height < a.height ∨ a.height = b.height ∧ b.timestampMs ≤ a.timestampMs

instance : DecidableRel newestFirst := fun _ _ => inferInstanceAs (Decidable (_ ∨ _))

def LogRange.excluded (range : LogRange) : List String :=
  (range.lower.map fun hash => ancestorSet store hash 100000).getD []

def topoWalk (start : String) (range : LogRange) : List Commit :=
  (topoLoop store (range.excluded store) range [] [start] 0 []).insertionSort newestFirst

/-- The history in depth-first order, the last parent of a commit before the others. -/
def depthFirst (exclude : List String) (noMerges : Bool) (visited stack : List String) : List Commit :=
  match stack with
  | [] => []
  | hash :: stack =>
    if hash ∈ visited then depthFirst exclude noMerges visited stack
    else if hash ∈ exclude then depthFirst exclude noMerges (hash :: visited) stack
    else
      (loadCommit store hash).toList.filter (fun commit => !(noMerges && 1 < commit.parents.length)) ++
        depthFirst exclude noMerges (hash :: visited) (pushParents store (hash :: visited) hash stack)
  termination_by (unseen store visited, stack.length)
  decreasing_by
  · exact .right _ (Nat.lt_succ_self _)
  · exact popped
  · exact pushed ‹_›

end

section

variable {store : List Commit} {exclude : List String} (range : LogRange) (skip limit : Nat)

def LogRange.whole : LogRange := { range with skip := none, limit := none }

def LogRange.page : LogRange := { range with skip := some skip, limit := some limit }

theorem topoLoop_extends (visited stack : List String) (skipped : Nat) (out : List Commit) :
    out <+: topoLoop store exclude range visited stack skipped out := by
  fun_induction topoLoop store exclude range visited stack skipped out with
  | case1 | case7 => exact prefix_rfl
  | case8 _ _ _ _ _ _ _ _ _ _ _ _ _ ih => exact (prefix_append ..).trans ih
  | _ => assumption

/-- The walk of a page runs beside the whole one, until the page is full. -/
theorem topoLoop_page (visited stack : List String) (skipped : Nat) (full : List Commit) :
    topoLoop store exclude (range.page skip limit) visited stack (min skip full.length)
      ((full.drop skip).take limit) =
        ((topoLoop store exclude range.whole visited stack skipped full).drop skip).take limit := by
  fun_induction topoLoop store exclude range.whole visited stack skipped full with
  | case1 => rw [topoLoop]
  | case2 _ _ _ _ _ seen ih => rw [topoLoop, if_pos seen, ih]
  | case3 _ _ _ _ _ fresh cut ih => rw [topoLoop, if_neg fresh, if_pos cut, ih]
  | case4 _ _ _ _ _ fresh inside absent ih => simpa only [topoLoop, if_neg fresh, if_neg inside, absent] using ih
  | case5 _ _ _ _ _ fresh inside commit loaded _ merge ih =>
    rw [topoLoop, if_neg fresh, if_neg inside]
    simp only [loaded]
    exact (if_pos merge).trans ih
  | case6 _ _ _ _ _ _ _ _ _ _ _ more => exact absurd more (Nat.not_lt_zero _)
  | case7 _ _ _ _ _ _ _ _ _ _ _ full => cases full
  | case8 visited skipped full hash stack fresh inside commit loaded _ kept _ _ ih =>
    rw [topoLoop, if_neg fresh, if_neg inside]
    simp only [loaded]
    refine (if_neg kept).trans ?_
    by_cases early : full.length < skip
    · have count : min skip full.length + 1 = min skip (full ++ [commit]).length := by
        rw [length_append, length_singleton]
        omega
      have none : full.drop skip = (full ++ [commit]).drop skip :=
        (drop_eq_nil_of_le early.le).trans (drop_eq_nil_of_le (by rw [length_append]; exact early)).symm
      refine (if_pos (show min skip full.length < skip by omega)).trans ?_
      rw [count, none]
      exact ih
    · refine (if_neg (show ¬ min skip full.length < skip by omega)).trans ?_
      split_ifs with done
      · have enough : limit ≤ ((full.drop skip).take limit).length := of_decide_eq_true done
        rw [length_take] at enough
        obtain ⟨more, extended⟩ := @topoLoop_extends store exclude range.whole (hash :: visited)
          (pushParents store (hash :: visited) hash stack) skipped (full ++ [commit])
        rw [← extended, append_assoc, drop_append_of_le_length (by omega), take_append_of_le_length (by omega)]
      · have room : ¬ limit ≤ ((full.drop skip).take limit).length := fun enough => done (decide_eq_true enough)
        rw [length_take] at room
        have count : min skip full.length = min skip (full ++ [commit]).length := by
          rw [length_append]
          omega
        have next : (full.drop skip).take limit ++ [commit] = ((full ++ [commit]).drop skip).take limit := by
          rw [drop_append_of_le_length (by omega), take_of_length_le (by omega), take_of_length_le]
          rw [length_append, length_singleton]
          omega
        rw [next, count]
        exact ih

theorem topoLoop_whole (visited stack : List String) (skipped : Nat) (out : List Commit) :
    topoLoop store exclude range.whole visited stack skipped out =
      out ++ depthFirst store exclude range.noMerges visited stack := by
  fun_induction topoLoop store exclude range.whole visited stack skipped out with
  | case1 => rw [depthFirst, append_nil]
  | case2 _ _ _ _ _ seen ih => rw [ih, depthFirst, if_pos seen]
  | case3 _ _ _ _ _ fresh cut ih => rw [ih, depthFirst, if_neg fresh, if_pos cut]
  | case4 _ _ _ _ _ fresh inside absent ih =>
    rw [ih, depthFirst, if_neg fresh, if_neg inside, absent, pushParents, parentsOf, absent]
    rfl
  | case5 _ _ _ _ _ fresh inside commit loaded _ merge ih =>
    obtain ⟨dropping, several⟩ : range.noMerges = true ∧ 1 < commit.parents.length := merge
    rw [ih, depthFirst, if_neg fresh, if_neg inside, loaded, Option.toList_some,
      filter_cons_of_neg (by simp [dropping, several])]
    rfl
  | case6 _ _ _ _ _ _ _ _ _ _ _ more => exact absurd more (Nat.not_lt_zero _)
  | case7 _ _ _ _ _ _ _ _ _ _ _ full => cases full
  | case8 _ _ _ _ _ fresh inside commit loaded _ kept _ _ ih =>
    have taken : ¬ (range.noMerges = true ∧ 1 < commit.parents.length) := kept
    rw [ih, depthFirst, if_neg fresh, if_neg inside, loaded, append_assoc, Option.toList_some,
      filter_cons_of_pos (by simpa [imp_iff_not_or] using taken)]
    rfl

/-- A history without merges, each commit above its parent. -/
structure Linear (store : List Commit) : Prop where
  single : ∀ commit ∈ store, commit.parents.length ≤ 1
  rising : ∀ commit ∈ store, ∀ parent ∈ store, parent.hash ∈ commit.parents → parent.height < commit.height

theorem Linear.pushes (linear : Linear store) {visited : List String} {hash : String} {commit : Commit}
    (loaded : loadCommit store hash = some commit) : (pushParents store visited hash []).length ≤ 1 ∧
      ∀ parent ∈ pushParents store visited hash [], ∀ top, loadCommit store parent = some top →
        top.height < commit.height := by
  obtain ⟨stored, -⟩ := loadCommit_some loaded
  simp only [pushParents, parentsOf, loaded, Option.map_some, Option.getD_some, append_nil, length_reverse, mem_reverse]
  refine ⟨(length_filter_le ..).trans (linear.single commit stored), fun parent link top found => ?_⟩
  obtain ⟨storedTop, rfl⟩ := loadCommit_some found
  exact linear.rising commit stored top storedTop (mem_of_mem_filter link)

theorem topoLoop_falls (linear : Linear store) (visited stack : List String) (skipped : Nat) (out : List Commit)
    (single : stack.length ≤ 1) (falls : out.Pairwise fun a b => b.height < a.height)
    (below : ∀ hash ∈ stack, ∀ top, loadCommit store hash = some top → ∀ commit ∈ out, top.height < commit.height) :
    (topoLoop store exclude range visited stack skipped out).Pairwise fun a b => b.height < a.height := by
  fun_induction topoLoop store exclude range visited stack skipped out with
  | case1 | case7 => exact falls
  | case2 _ _ _ _ _ _ ih | case3 _ _ _ _ _ _ _ ih | case4 _ _ _ _ _ _ _ _ ih =>
    exact ih ((Nat.le_succ _).trans single) falls fun hash waiting => below hash (mem_cons_of_mem _ waiting)
  | case5 _ _ out hash stack _ _ commit loaded _ _ ih | case6 _ _ out hash stack _ _ commit loaded _ _ _ ih =>
    obtain rfl : stack = [] := by simpa using single
    obtain ⟨short, lower⟩ := linear.pushes loaded
    exact ih short falls fun parent waiting top found other emitted =>
      (lower parent waiting top found).trans (below hash mem_cons_self commit loaded other emitted)
  | case8 _ _ out hash stack _ _ commit loaded _ _ _ _ ih =>
    obtain rfl : stack = [] := by simpa using single
    obtain ⟨short, lower⟩ := linear.pushes loaded
    have last := below hash mem_cons_self commit loaded
    refine ih short (pairwise_append.mpr ⟨falls, pairwise_singleton .., fun other emitted next new => ?_⟩) ?_
    · rw [mem_singleton.mp new]
      exact last other emitted
    · intro parent waiting top found other emitted
      rcases mem_append.mp emitted with before | new
      · exact (lower parent waiting top found).trans (last other before)
      · rw [mem_singleton.mp new]
        exact lower parent waiting top found

instance : Std.Total newestFirst := ⟨fun a b => by unfold newestFirst; omega⟩

instance : IsTrans Commit newestFirst := ⟨fun a b c => by unfold newestFirst; omega⟩

/-- A list whose elements stand where its sorted form has them is sorted. -/
theorem pairwise_of_slices {walk : List Commit}
    (slices : ∀ i, (walk.drop i).take 1 = ((walk.insertionSort newestFirst).drop i).take 1) :
    walk.Pairwise newestFirst := by
  have same : walk = walk.insertionSort newestFirst := by
    refine ext_getElem? fun i => ?_
    have here := congrArg (·[0]?) (slices i)
    simpa [getElem?_take, getElem?_drop] using here
  rw [same]
  exact pairwise_insertionSort ..

/-- The pages are the slices of the whole log exactly if the depth-first order of the history is newest first. So it
    is without merges, each commit above its parent. -/
theorem topoWalk_pages (store : List Commit) (start : String) (range : LogRange) :
    ((∀ skip limit, topoWalk store start (range.page skip limit) =
        ((topoWalk store start range.whole).drop skip).take limit) ↔
      (depthFirst store (range.excluded store) range.noMerges [] [start]).Pairwise newestFirst) ∧
    (Linear store → (depthFirst store (range.excluded store) range.noMerges [] [start]).Pairwise newestFirst) := by
  have walked := @topoLoop_whole store (range.excluded store) range [] [start] 0 []
  rw [nil_append] at walked
  have paged (skip limit : Nat) := @topoLoop_page store (range.excluded store) range skip limit [] [start] 0 []
  simp only [length_nil, Nat.min_zero, drop_nil, take_nil, walked] at paged
  have page (skip limit : Nat) : topoWalk store start (range.page skip limit) =
      (((depthFirst store (range.excluded store) range.noMerges [] [start]).drop skip).take limit).insertionSort
        newestFirst := congrArg (insertionSort newestFirst) (paged skip limit)
  have whole : topoWalk store start range.whole =
      (depthFirst store (range.excluded store) range.noMerges [] [start]).insertionSort newestFirst :=
    congrArg (insertionSort newestFirst) walked
  simp only [page, whole]
  refine ⟨⟨fun slices => pairwise_of_slices fun i => ?_, fun sorted skip limit => ?_⟩, fun linear => ?_⟩
  · rw [← slices i 1]
    have single : (((depthFirst store (range.excluded store) range.noMerges [] [start]).drop i).take 1).Pairwise
        newestFirst := by
      rw [take_one]
      cases head? _ <;> simp
    exact single.insertionSort_eq.symm
  · rw [sorted.insertionSort_eq]
    exact (sorted.sublist ((take_sublist ..).trans (drop_sublist ..))).insertionSort_eq
  · rw [← walked]
    exact (topoLoop_falls range.whole linear [] [start] 0 [] le_rfl .nil nofun).imp Or.inl

/-- The walk takes the last parent's line down to the root before the other parent. -/
theorem merge_page_differs :
    let store : List Commit := [⟨"r", [], 0, 0⟩, ⟨"a", ["r"], 1, 1⟩, ⟨"b", ["r"], 1, 2⟩, ⟨"m", ["a", "b"], 2, 3⟩]
    let range : LogRange := ⟨none, none, none, false⟩
    topoWalk store "m" (range.page 2 1) = [⟨"r", [], 0, 0⟩] ∧
      ((topoWalk store "m" range.whole).drop 2).take 1 = [⟨"a", ["r"], 1, 1⟩] := by
  simp [topoWalk, topoLoop, LogRange.excluded, LogRange.page, LogRange.whole, loadCommit, pushParents, parentsOf, newestFirst]

end

end RedDB.Vcs
