import Mathlib

namespace RedDB.Library

structure PreorderOn {α : Type*} (cmp : α → α → Ordering) (elements : List α) : Prop where
  refl : ∀ a ∈ elements, cmp a a = .eq
  swap : ∀ a ∈ elements, ∀ b ∈ elements, cmp b a = (cmp a b).swap
  trans : ∀ a ∈ elements, ∀ b ∈ elements, ∀ c ∈ elements,
    (cmp a b).isLE = true → (cmp b c).isLE = true → (cmp a c).isLE = true

namespace PreorderOn

variable {α β : Type*} {cmp other : α → α → Ordering} {elements : List α} {a b c : α}

theorem of_key {cmpKey : β → β → Ordering} [Std.TransCmp cmpKey] (key : α → β)
    (agrees : ∀ a ∈ elements, ∀ b ∈ elements, cmp a b = cmpKey (key a) (key b)) : PreorderOn cmp elements where
  refl a member := by
    rw [agrees a member a member]
    exact Std.ReflCmp.compare_self
  swap a member b memberOther := by
    rw [agrees b memberOther a member, agrees a member b memberOther]
    exact Std.OrientedCmp.eq_swap
  trans a first b second c third le le' := by
    rw [agrees a first b second] at le
    rw [agrees b second c third] at le'
    rw [agrees a first c third]
    exact Std.TransCmp.isLE_trans le le'

section

variable (order : PreorderOn cmp elements)
include order

theorem congr (agrees : ∀ a ∈ elements, ∀ b ∈ elements, other a b = cmp a b) : PreorderOn other elements where
  refl a member := by rw [agrees a member a member, order.refl a member]
  swap a member b memberOther := by
    rw [agrees b memberOther a member, agrees a member b memberOther, order.swap a member b memberOther]
  trans a first b second c third le le' := by
    rw [agrees a first b second] at le
    rw [agrees b second c third] at le'
    rw [agrees a first c third]
    exact order.trans a first b second c third le le'

theorem lt_of_lt_of_isLE (first : a ∈ elements) (second : b ∈ elements)
    (third : c ∈ elements) (less : cmp a b = .lt) (le : (cmp b c).isLE = true) : cmp a c = .lt := by
  have below := order.trans a first b second c third (by rw [less]; rfl) le
  cases result : cmp a c with
  | lt => rfl
  | gt => rw [result] at below; cases below
  | eq =>
    have back : (cmp c a).isLE = true := by rw [order.swap a first c third, result]; rfl
    have wrong := order.trans b second c third a first le back
    rw [order.swap a first b second, less] at wrong
    cases wrong

theorem lt_of_isLE_of_lt (first : a ∈ elements) (second : b ∈ elements)
    (third : c ∈ elements) (le : (cmp a b).isLE = true) (less : cmp b c = .lt) : cmp a c = .lt := by
  have below := order.trans a first b second c third le (by rw [less]; rfl)
  cases result : cmp a c with
  | lt => rfl
  | gt => rw [result] at below; cases below
  | eq =>
    have back : (cmp c a).isLE = true := by rw [order.swap a first c third, result]; rfl
    have wrong := order.trans c third a first b second back le
    rw [order.swap b second c third, less] at wrong
    cases wrong

theorem eq_trans (first : a ∈ elements) (second : b ∈ elements)
    (third : c ∈ elements) (same : cmp a b = .eq) (same' : cmp b c = .eq) : cmp a c = .eq := by
  have below := order.trans a first b second c third (by rw [same]; rfl) (by rw [same']; rfl)
  have above := order.trans c third b second a first (by rw [order.swap b second c third, same']; rfl)
    (by rw [order.swap a first b second, same]; rfl)
  rw [order.swap a first c third] at above
  cases result : cmp a c with
  | lt => rw [result] at above; cases above
  | gt => rw [result] at below; cases below
  | eq => rfl

theorem reverse : PreorderOn (fun a b => (cmp a b).swap) elements where
  refl a member := by rw [order.refl a member]; rfl
  swap a member b memberOther := by rw [order.swap a member b memberOther]
  trans a first b second c third le le' := by
    rw [← order.swap a first b second] at le
    rw [← order.swap b second c third] at le'
    rw [← order.swap a first c third]
    exact order.trans c third b second a first le' le

theorem thenBy (next : PreorderOn other elements) :
    PreorderOn (fun a b => (cmp a b).then (other a b)) elements where
  refl a member := by rw [order.refl a member, next.refl a member]; rfl
  swap a member b memberOther := by
    rw [order.swap a member b memberOther, next.swap a member b memberOther, Ordering.swap_then]
  trans a first b second c third le le' := by
    simp only [Ordering.isLE_then_iff_or] at le le' ⊢
    rcases le with less | ⟨same, later⟩
    · have le'' : (cmp b c).isLE = true := by
        rcases le' with less' | ⟨same', -⟩
        · rw [less']; rfl
        · rw [same']; rfl
      exact .inl (order.lt_of_lt_of_isLE first second third less le'')
    · rcases le' with less' | ⟨same', later'⟩
      · exact .inl (order.lt_of_isLE_of_lt first second third (by rw [same]; rfl) less')
      · exact .inr ⟨order.eq_trans first second third same same', next.trans a first b second c third later later'⟩

end

end PreorderOn

end RedDB.Library
