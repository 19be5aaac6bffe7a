import Mathlib

/-! Lists cut in two: positions at, before and after the cut. -/

namespace RedDB.Library.Cut

variable {α : Type} (before after : List α) (x y : α)

@[simp] theorem insertIdx_cut : (before ++ after).insertIdx before.length x = before ++ x :: after := by
  induction before with
  | nil => rfl
  | cons b before ih => simp [ih]

theorem length_takeWhile_cut {p : α → Bool} (passing : ∀ b ∈ before, p b = true)
    (stops : ∀ a ∈ after.head?, p a = false) : ((before ++ after).takeWhile p).length = before.length := by
  rw [List.takeWhile_append_of_pos passing]
  cases after with
  | nil => simp
  | cons a after =>
    have stop : p a = false := stops a (by simp)
    simp [stop]

end RedDB.Library.Cut

namespace RedDB.Library

section

variable {μ : Type} [LinearOrder μ] {before after : List μ}

theorem sorted_insert {m : μ} (sorted : (before ++ after).Pairwise (· < ·)) (lower : ∀ a ∈ before, a < m)
    (upper : ∀ b ∈ after, m < b) : (before ++ m :: after).Pairwise (· < ·) := by
  rw [List.pairwise_append] at sorted ⊢
  obtain ⟨first, last, across⟩ := sorted
  refine ⟨first, List.pairwise_cons.mpr ⟨upper, last⟩, ?_⟩
  intro a inBefore b inAfter
  rcases List.mem_cons.mp inAfter with rfl | inAfter
  · exact lower a inBefore
  · exact across a inBefore b inAfter

theorem exists_position {α : Type} (key : α → μ) {xs : List α} (sorted : (xs.map key).Pairwise (· < ·)) (k : μ) :
    (∃ before x after, xs = before ++ x :: after ∧ key x = k ∧ (∀ y ∈ before, key y < k) ∧ ∀ y ∈ after, k < key y) ∨
      ∃ before after, xs = before ++ after ∧ (∀ y ∈ before, key y < k) ∧ ∀ y ∈ after, k < key y := by
  induction xs with
  | nil => exact .inr ⟨[], [], rfl, by simp, by simp⟩
  | cons x xs ih =>
    rw [List.map_cons, List.pairwise_cons] at sorted
    have above : ∀ y ∈ xs, key x < key y := fun y member => sorted.1 _ (List.mem_map_of_mem member)
    rcases lt_trichotomy (key x) k with less | same | greater
    · rcases ih sorted.2 with ⟨before, y, after, rfl, found, lower, upper⟩ | ⟨before, after, rfl, lower, upper⟩
      · refine .inl ⟨x :: before, y, after, rfl, found, ?_, upper⟩
        intro z member
        rcases List.mem_cons.mp member with rfl | member
        · exact less
        · exact lower z member
      · refine .inr ⟨x :: before, after, rfl, ?_, upper⟩
        intro z member
        rcases List.mem_cons.mp member with rfl | member
        · exact less
        · exact lower z member
    · exact .inl ⟨[], x, xs, rfl, same, by simp, fun y member => same ▸ above y member⟩
    · refine .inr ⟨[], x :: xs, rfl, by simp, ?_⟩
      intro z member
      rcases List.mem_cons.mp member with rfl | member
      · exact greater
      · exact greater.trans (above z member)

end

end RedDB.Library
