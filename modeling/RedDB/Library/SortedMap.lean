import Mathlib

namespace RedDB.Library

open List Option

variable {κ ν : Type*} [LinearOrder κ]

structure SortedMap (κ ν : Type*) [LinearOrder κ] where
  entries : List (κ × ν)
  sorted : entries.Pairwise (·.1 < ·.1)

namespace SortedMap

def empty : SortedMap κ ν := ⟨[], .nil⟩

def get? (m : SortedMap κ ν) (k : κ) : Option ν := (m.entries.find? (·.1 = k)).map Prod.snd

def values (m : SortedMap κ ν) : List ν := m.entries.map Prod.snd

def insertEntry (k : κ) (v : ν) : List (κ × ν) → List (κ × ν)
  | [] => [(k, v)]
  | e :: rest =>
    if k < e.1 then (k, v) :: e :: rest
    else if e.1 = k then (k, v) :: rest
    else e :: insertEntry k v rest

section

variable {k : κ} {v : ν} {entries : List (κ × ν)} (sorted : entries.Pairwise (·.1 < ·.1))
include k v entries sorted

theorem mem_insertEntry {e : κ × ν} : e ∈ insertEntry k v entries ↔ e = (k, v) ∨ e ∈ entries ∧ e.1 ≠ k := by
  induction entries with
  | nil => simp [insertEntry]
  | cons first rest ih =>
    obtain ⟨before, ordered⟩ := pairwise_cons.mp sorted
    simp only [insertEntry]
    split_ifs with below same
    · have other : ∀ e ∈ first :: rest, e.1 ≠ k := by
        rintro e (_ | ⟨_, later⟩)
        · exact below.ne'
        · exact (below.trans (before e later)).ne'
      constructor
      · rintro (_ | ⟨_, old⟩)
        · exact .inl rfl
        · exact .inr ⟨old, other e old⟩
      · rintro (rfl | ⟨old, -⟩)
        · exact mem_cons_self
        · exact mem_cons_of_mem _ old
    · have other : ∀ e ∈ rest, e.1 ≠ k := fun e later => (same ▸ before e later).ne'
      constructor
      · rintro (_ | ⟨_, old⟩)
        · exact .inl rfl
        · exact .inr ⟨mem_cons_of_mem _ old, other e old⟩
      · rintro (rfl | ⟨_ | ⟨_, old⟩, different⟩)
        · exact mem_cons_self
        · exact absurd same different
        · exact mem_cons_of_mem _ old
    · rw [mem_cons, ih ordered, mem_cons]
      constructor
      · rintro (rfl | rfl | ⟨old, different⟩)
        · exact .inr ⟨.inl rfl, same⟩
        · exact .inl rfl
        · exact .inr ⟨.inr old, different⟩
      · rintro (rfl | ⟨rfl | old, different⟩)
        · exact .inr (.inl rfl)
        · exact .inl rfl
        · exact .inr (.inr ⟨old, different⟩)

theorem sorted_insertEntry : (insertEntry k v entries).Pairwise (·.1 < ·.1) := by
  induction entries with
  | nil => exact pairwise_singleton _ _
  | cons first rest ih =>
    obtain ⟨before, ordered⟩ := pairwise_cons.mp sorted
    simp only [insertEntry]
    split_ifs with below same
    · refine pairwise_cons.mpr ⟨?_, sorted⟩
      rintro e (_ | ⟨_, later⟩)
      · exact below
      · exact below.trans (before e later)
    · refine pairwise_cons.mpr ⟨fun e later => ?_, ordered⟩
      exact same ▸ before e later
    · refine pairwise_cons.mpr ⟨fun e member => ?_, ih ordered⟩
      rcases (mem_insertEntry ordered).mp member with rfl | ⟨old, -⟩
      · exact lt_of_le_of_ne (not_lt.mp below) same
      · exact before e old

end

section

variable (m : SortedMap κ ν)

def insert (k : κ) (v : ν) : SortedMap κ ν :=
  ⟨insertEntry k v m.entries, sorted_insertEntry m.sorted⟩

def filterKeys (keep : κ → Bool) : SortedMap κ ν :=
  ⟨m.entries.filter fun e => keep e.1, m.sorted.filter _⟩

def mapValues (f : ν → ν) : SortedMap κ ν :=
  ⟨m.entries.map fun e => (e.1, f e.2), pairwise_map.mpr m.sorted⟩

end

theorem mem_entries {m : SortedMap κ ν} {k : κ} {v : ν} : (k, v) ∈ m.entries ↔ m.get? k = some v := by
  obtain ⟨entries, sorted⟩ := m
  simp only [get?]
  induction entries with
  | nil => simp
  | cons first rest ih =>
    obtain ⟨before, ordered⟩ := pairwise_cons.mp sorted
    by_cases same : first.1 = k
    · have absent : (k, v) ∉ rest := fun member => (same ▸ before (k, v) member).false
      have held : (k, v) = first ↔ first.2 = v := by
        rw [← same, eq_comm, Prod.ext_iff]
        simp
      simp [same, absent, held]
    · have other : (k, v) ≠ first := fun eq => same (by rw [← eq])
      simpa [same, other] using ih ordered

theorem ext_mem {m m' : SortedMap κ ν} (members : ∀ e, e ∈ m.entries ↔ e ∈ m'.entries) : m = m' := by
  have nodup (l : List (κ × ν)) (sorted : l.Pairwise (·.1 < ·.1)) : l.Nodup :=
    sorted.imp fun less eq => (eq ▸ less).false
  have perm : m.entries.Perm m'.entries := (perm_ext_iff_of_nodup (nodup _ m.sorted) (nodup _ m'.sorted)).mpr members
  have equal : m.entries = m'.entries :=
    perm.eq_of_pairwise (fun a b _ _ less more => absurd less more.asymm) m.sorted m'.sorted
  cases m
  cases m'
  congr

theorem ext_get? {m m' : SortedMap κ ν} (same : ∀ k, m.get? k = m'.get? k) : m = m' := by
  apply ext_mem
  rintro ⟨k, v⟩
  rw [mem_entries, mem_entries, same]

section

variable (m : SortedMap κ ν)
include m

theorem get?_insert (k j : κ) (v : ν) : (m.insert k v).get? j = if j = k then some v else m.get? j := by
  ext w
  rw [← mem_def, mem_def, ← mem_entries]
  simp only [insert]
  rw [mem_insertEntry m.sorted]
  split_ifs with same
  · subst same
    simp [eq_comm]
  · rw [mem_entries]
    simp [same]

theorem get?_filterKeys (keep : κ → Bool) (j : κ) :
    (m.filterKeys keep).get? j = if keep j then m.get? j else none := by
  ext w
  rw [← mem_def, mem_def, ← mem_entries]
  simp only [filterKeys, mem_filter]
  rw [mem_entries]
  split_ifs with kept
  · simp [kept]
  · simp [kept]

theorem get?_mapValues (f : ν → ν) (j : κ) : (m.mapValues f).get? j = (m.get? j).map f := by
  simp only [get?, mapValues, find?_map, Option.map_map]
  rfl

theorem keys_nodup : (m.entries.map Prod.fst).Nodup := pairwise_map.mpr (m.sorted.imp fun less => less.ne)

end

end SortedMap

end RedDB.Library
