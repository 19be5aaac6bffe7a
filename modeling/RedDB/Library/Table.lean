import Mathlib

namespace RedDB.Library

open List

structure Table (κ ν : Type*) where
  keys : Finset κ
  value : κ → ν

namespace Table

variable {κ ν : Type*} [DecidableEq κ]

def empty [Inhabited ν] : Table κ ν := { keys := ∅, value := fun _ => default }

section

variable (t : Table κ ν)

variable (k : κ)

def get? : Option ν := if k ∈ t.keys then some (t.value k) else none

def insert (v : ν) : Table κ ν :=
  { keys := Insert.insert k t.keys, value := Function.update t.value k v }

def erase : Table κ ν := { t with keys := t.keys.erase k }

/-- Apply `f` to the value at `k`, if there is one. -/
def modify (f : ν → ν) : Table κ ν :=
  { t with value := Function.update t.value k (f (t.value k)) }

def mapValues (f : κ → ν → ν) : Table κ ν := { t with value := fun k => f k (t.value k) }

end

@[simp] theorem get?_empty [Inhabited ν] (k : κ) : (empty : Table κ ν).get? k = none := by
  simp [get?, empty]

theorem mem_keys {t : Table κ ν} {k : κ} : k ∈ t.keys ↔ ∃ v, t.get? k = some v := by
  by_cases held : k ∈ t.keys <;> simp [get?, held]

theorem get?_eq_none {t : Table κ ν} {k : κ} : t.get? k = none ↔ k ∉ t.keys := by
  simp [get?]

section

variable (t : Table κ ν)
include t

theorem get?_insert (k j : κ) (v : ν) : (t.insert k v).get? j = if j = k then some v else t.get? j := by
  by_cases same : j = k
  · simp [get?, insert, same]
  · simp [get?, insert, same]

theorem get?_erase (k j : κ) : (t.erase k).get? j = if j = k then none else t.get? j := by
  by_cases same : j = k <;> simp [get?, erase, same]

theorem get?_modify (k j : κ) (f : ν → ν) : (t.modify k f).get? j = if j = k then (t.get? k).map f else t.get? j := by
  by_cases same : j = k
  · subst same
    by_cases held : j ∈ t.keys <;> simp [get?, modify, held]
  · simp [get?, modify, same]

theorem get?_mapValues (f : κ → ν → ν) (k : κ) : (t.mapValues f).get? k = (t.get? k).map (f k) := by
  by_cases held : k ∈ t.keys <;> simp [get?, mapValues, held]

end

def Counts (t : Table κ Nat) (l : List κ) : Prop := ∀ k, t.get? k = if k ∈ l then some (l.count k) else none

theorem Counts.empty : Counts (Table.empty : Table κ Nat) [] := fun k => by simp

theorem Counts.perm {t : Table κ Nat} {l l' : List κ} (counts : Counts t l) (same : l.Perm l') :
    Counts t l' := fun k => by simp only [counts k, same.count_eq k, same.mem_iff]

section

variable {t : Table κ Nat} {l : List κ} (counts : Counts t l)
include t l counts

theorem Counts.mem_keys {k : κ} (member : k ∈ l) :
    k ∈ t.keys := Table.mem_keys.mpr ⟨l.count k, by rw [counts k, if_pos member]⟩

theorem Counts.retain (k : κ) : Counts (t.insert k ((t.get? k).getD 0 + 1)) (k :: l) := by
  intro j
  rw [get?_insert]
  by_cases same : j = k
  · subst same
    have before : (t.get? j).getD 0 = l.count j := by
      rw [counts j]
      split_ifs with member
      · rfl
      · exact (count_eq_zero_of_not_mem member).symm
    simp [before]
  · have other : k ≠ j := fun eq => same eq.symm
    simp [same, counts j, count_cons_of_ne other]

theorem Counts.release {k : κ} (member : k ∈ l) :
    Counts (if t.get? k = some 1 then t.erase k else t.modify k (· - 1)) (l.erase k) := by
  intro j
  have present : t.get? k = some (l.count k) := by rw [counts k, if_pos member]
  have positive : 0 < l.count k := count_pos_iff.mpr member
  by_cases same : j = k
  · subst same
    have left : (l.erase j).count j = l.count j - 1 := count_erase_self
    split_ifs with last still still
    · have single : l.count j = 1 := by simpa [present] using last
      have some_left := count_pos_iff.mpr still
      omega
    · simp [get?_erase]
    · simp [get?_modify, present, left]
    · have none_left := count_eq_zero_of_not_mem still
      have several : l.count j ≠ 1 := by simpa [present] using last
      omega
  · have kept : (l.erase k).count j = l.count j := count_erase_of_ne same
    have member_iff : j ∈ l.erase k ↔ j ∈ l := mem_erase_of_ne same
    split_ifs with last <;> simp_all [get?_erase, get?_modify, counts j]

end

end Table

end RedDB.Library
