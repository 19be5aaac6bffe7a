import Mathlib

namespace RedDB.Library

open List

variable {α : Type}

/-- Consecutive pieces of `n` elements; the last one may be shorter. -/
def chunks (n : Nat) : List α → List (List α)
  | [] => []
  | x :: xs => (x :: xs.take (n - 1)) :: chunks n (xs.drop (n - 1))
termination_by xs => xs.length
decreasing_by
  simp only [length_drop, length_cons]
  omega

theorem flatten_chunks (n : Nat) (xs : List α) : (chunks n xs).flatten = xs := by
  fun_induction chunks n xs with
  | case1 => rfl
  | case2 x xs ih => rw [flatten_cons, ih, cons_append, take_append_drop]

theorem chunks_flatten {n : Nat} (positive : 0 < n) {pieces : List (List α)}
    (lengths : ∀ piece ∈ pieces, piece.length = n) : chunks n pieces.flatten = pieces := by
  induction pieces with
  | nil => simp [chunks]
  | cons piece rest ih =>
    have length := lengths piece mem_cons_self
    cases piece with
    | nil =>
      rw [length_nil] at length
      omega
    | cons x xs =>
      have tail : xs.length = n - 1 := by
        rw [length_cons] at length
        omega
      rw [flatten_cons, cons_append, chunks, take_left' tail, drop_left' tail,
        ih fun piece member => lengths piece (mem_cons_of_mem _ member)]

theorem length_of_mem_chunks {n : Nat} (positive : 0 < n) {xs chunk : List α} (member : chunk ∈ chunks n xs) :
    chunk.length ≤ n := by
  fun_induction chunks n xs with
  | case1 => cases member
  | case2 x xs ih =>
    rcases mem_cons.mp member with rfl | member
    · simp only [length_cons, length_take]
      omega
    · exact ih member

end RedDB.Library
