import Mathlib

namespace RedDB.Library

open List Finset

variable {α : Type*} [DecidableEq α]

/-- A quorum of `all`: distinct members, more than half of them. -/
structure Majority (all chosen : List α) : Prop where
  distinct : chosen.Nodup
  subset : chosen ⊆ all
  large : all.length < 2 * chosen.length

theorem Majority.intersect {all left right : List α} (hl : Majority all left) (hr : Majority all right) :
    ∃ a, a ∈ left ∧ a ∈ right := by
  have sizes : all.toFinset.card < left.toFinset.card + right.toFinset.card := by
    have bound := toFinset_card_le all
    have large := hl.large
    have large' := hr.large
    rw [toFinset_card_of_nodup hl.distinct, toFinset_card_of_nodup hr.distinct]
    omega
  have inside : left.toFinset ∪ right.toFinset ⊆ all.toFinset := by
    intro a member
    rcases mem_union.mp member with member | member
    · exact mem_toFinset.mpr (hl.subset (mem_toFinset.mp member))
    · exact mem_toFinset.mpr (hr.subset (mem_toFinset.mp member))
  obtain ⟨a, member⟩ := inter_nonempty_of_card_lt_card_add_card
    (subset_union_left.trans inside) (subset_union_right.trans inside) sizes
  rw [mem_inter, mem_toFinset, mem_toFinset] at member
  exact ⟨a, member⟩

section

variable {β : Type*} [LinearOrder β]

theorem rank_lt_countP {l : List β} {k : Nat} {t v : β}
    (ranked : (l.insertionSort (· ≥ ·))[k]? = some v) (high : t ≤ v) :
    k < l.countP fun a => decide (t ≤ a) := by
  have sorted := pairwise_insertionSort (r := (· ≥ ·)) l
  have perm := perm_insertionSort (r := (· ≥ ·)) l
  rw [← perm.countP_eq]
  generalize l.insertionSort (· ≥ ·) = s at ranked sorted
  obtain ⟨inside, rfl⟩ := List.getElem?_eq_some_iff.mp ranked
  have front : ∀ a ∈ s.take (k + 1), decide (t ≤ a) = true := by
    intro a member
    obtain ⟨j, before, rfl⟩ := mem_take_iff_getElem.mp member
    have le : s[k] ≤ s[j] := by
      rcases Nat.lt_or_ge j k with less | _
      · exact pairwise_iff_getElem.mp sorted j k _ _ less
      · have : j = k := by omega
        subst this
        exact le_refl _
    exact decide_eq_true (high.trans le)
  calc k < (s.take (k + 1)).length := by rw [length_take]; omega
    _ = (s.take (k + 1)).countP fun a => decide (t ≤ a) := (countP_eq_length.mpr front).symm
    _ ≤ s.countP fun a => decide (t ≤ a) := (take_sublist _ _).countP_le

end

end RedDB.Library
