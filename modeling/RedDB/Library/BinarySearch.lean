import Mathlib

namespace RedDB.Library

open List

inductive SearchResult
  | found (index : Nat)
  | notFound (index : Nat)
  deriving DecidableEq, Repr

variable {α : Type}

def searchLoop (probe : α → Ordering) (xs : List α) : Nat → Nat → Nat → SearchResult
  | 0, low, _ => .notFound low
  | fuel + 1, low, high =>
    if low < high then
      match xs[(low + high) / 2]?.map probe with
      | some .lt => searchLoop probe xs fuel ((low + high) / 2 + 1) high
      | some .gt => searchLoop probe xs fuel low ((low + high) / 2)
      | some .eq => .found ((low + high) / 2)
      | none => .notFound low
    else .notFound low

def binarySearch (probe : α → Ordering) (xs : List α) : SearchResult := searchLoop probe xs xs.length 0 xs.length

section

variable {probe : α → Ordering} {before after : List α}

theorem probe_of_lt (less : ∀ x ∈ before, probe x = .lt) {i : Nat} (inside : i < before.length) :
    (before ++ after)[i]?.map probe = some .lt := by
  rw [getElem?_append_left inside, getElem?_eq_getElem inside, Option.map_some, less _ (getElem_mem inside)]

theorem probe_of_gt (greater : ∀ x ∈ after, probe x = .gt) {i : Nat} (past : before.length ≤ i)
    (inside : i < (before ++ after).length) : (before ++ after)[i]?.map probe = some .gt := by
  have bound : i - before.length < after.length := by
    rw [length_append] at inside
    omega
  rw [getElem?_append_right past, getElem?_eq_getElem bound, Option.map_some, greater _ (getElem_mem bound)]

theorem searchLoop_notFound (less : ∀ x ∈ before, probe x = .lt) (greater : ∀ x ∈ after, probe x = .gt)
    (fuel low high : Nat) (enough : high - low ≤ fuel) (lower : low ≤ before.length)
    (upper : before.length ≤ high) (inside : high ≤ (before ++ after).length) :
    searchLoop probe (before ++ after) fuel low high = .notFound before.length := by
  induction fuel generalizing low high with
  | zero =>
    have same : low = before.length := by omega
    simp [searchLoop, same]
  | succ fuel ih =>
    unfold searchLoop
    by_cases open_ : low < high
    · rw [if_pos open_]
      by_cases left : (low + high) / 2 < before.length
      · rw [probe_of_lt less left]
        exact ih _ _ (by omega) (by omega) upper inside
      · rw [probe_of_gt greater (by omega) (by omega)]
        exact ih _ _ (by omega) lower (by omega) (by omega)
    · have same : low = before.length := by omega
      rw [if_neg open_, same]

theorem searchLoop_found {x : α} (less : ∀ y ∈ before, probe y = .lt) (here : probe x = .eq)
    (greater : ∀ y ∈ after, probe y = .gt) (fuel low high : Nat) (enough : high - low ≤ fuel)
    (lower : low ≤ before.length) (upper : before.length < high)
    (inside : high ≤ (before ++ x :: after).length) :
    searchLoop probe (before ++ x :: after) fuel low high = .found before.length := by
  induction fuel generalizing low high with
  | zero => omega
  | succ fuel ih =>
    unfold searchLoop
    have open_ : low < high := by omega
    rw [if_pos open_]
    rcases Nat.lt_trichotomy ((low + high) / 2) before.length with left | same | right
    · rw [probe_of_lt less left]
      exact ih _ _ (by omega) (by omega) upper inside
    · rw [same]
      have hit : (before ++ x :: after)[before.length]?.map probe = some .eq := by
        rw [getElem?_append_right (Nat.le_refl _)]
        simp [here]
      rw [hit]
    · have later : (before ++ x :: after)[(low + high) / 2]?.map probe = some .gt := by
        rw [← singleton_append, ← append_assoc] at inside ⊢
        apply probe_of_gt greater
        · rw [length_append, length_singleton]
          omega
        · omega
      rw [later]
      exact ih _ _ (by omega) lower right (by omega)

theorem binarySearch_notFound (less : ∀ x ∈ before, probe x = .lt) (greater : ∀ x ∈ after, probe x = .gt) :
    binarySearch probe (before ++ after) = .notFound before.length := by
  apply searchLoop_notFound less greater
  · omega
  · omega
  · rw [length_append]
    omega
  · exact Nat.le_refl _

theorem binarySearch_found {x : α} (less : ∀ y ∈ before, probe y = .lt) (here : probe x = .eq)
    (greater : ∀ y ∈ after, probe y = .gt) :
    binarySearch probe (before ++ x :: after) = .found before.length := by
  apply searchLoop_found less here greater
  · omega
  · omega
  · rw [length_append, length_cons]
    omega
  · exact Nat.le_refl _

end

end RedDB.Library
