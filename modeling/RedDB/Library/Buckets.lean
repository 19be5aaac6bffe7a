import RedDB.Library.Table

namespace RedDB.Library

open List

/-- The positions of each key in a list, in a hash table of buckets. Elements without a key are skipped. -/
structure Buckets (κ : Type*) where
  table : Table κ (List Nat)

namespace Buckets

variable {κ : Type*} [DecidableEq κ]

def empty : Buckets κ := ⟨Table.empty⟩

section

variable (buckets : Buckets κ)

def find (key : κ) : List Nat := (buckets.table.get? key).getD []

def push (key : κ) (index : Nat) : Buckets κ := ⟨buckets.table.insert key (buckets.find key ++ [index])⟩

def add : Option κ × Nat → Buckets κ
  | (some key, index) => buckets.push key index
  | (none, _) => buckets

end

variable (keys : List (Option κ))

def ofKeys : Buckets κ := keys.zipIdx.foldl add empty

theorem find_empty (key : κ) : (empty : Buckets κ).find key = [] := by
  simp [find, empty]

theorem find_push (buckets : Buckets κ) (key other : κ) (index : Nat) :
    (buckets.push key index).find other = if other = key then buckets.find key ++ [index] else buckets.find other := by
  unfold push find
  rw [Table.get?_insert]
  split_ifs <;> rfl

theorem find_foldl_add (entries : List (Option κ × Nat)) (buckets : Buckets κ) (key : κ) :
    (entries.foldl add buckets).find key = buckets.find key ++ (entries.filter (·.1 = some key)).map Prod.snd := by
  induction entries generalizing buckets with
  | nil => simp
  | cons entry entries ih =>
    obtain ⟨held, index⟩ := entry
    rw [foldl_cons, ih]
    cases held with
    | none => simp [add]
    | some other =>
      rw [add, find_push]
      by_cases same : key = other
      · simp [same]
      · simp [same, Ne.symm same]

theorem positions_eq (key : κ) : (keys.zipIdx.filter (·.1 = some key)).map Prod.snd =
      (List.range keys.length).filter fun index => keys[index]? = some (some key) := by
  induction keys using List.reverseRecOn with
  | nil => rfl
  | append_singleton keys last ih =>
    have before : (List.range keys.length).filter (fun index => (keys ++ [last])[index]? = some (some key)) =
        (List.range keys.length).filter fun index => keys[index]? = some (some key) := by
      apply filter_congr
      intro index member
      rw [getElem?_append_left (mem_range.mp member)]
    rw [zipIdx_append, filter_append, map_append, ih, length_append, length_singleton,
      range_succ, filter_append, before]
    congr 1
    by_cases same : last = some key
    · simp [same]
    · simp [same]

theorem find_ofKeys (key : κ) :
    (ofKeys keys).find key = (List.range keys.length).filter fun index => keys[index]? = some (some key) := by
  rw [ofKeys, find_foldl_add, find_empty, nil_append, positions_eq]

end Buckets

end RedDB.Library
