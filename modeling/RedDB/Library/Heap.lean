import Mathlib

namespace RedDB.Library

open Multiset

inductive HeapOp
  | allocate (address : Nat)
  | free (address : Nat)
  deriving DecidableEq, Repr

/-- Records by address. A freed record stays readable; the log, newest first, tells what has been
    allocated and freed. -/
structure Heap (ρ : Type) where
  cells : Nat → Option ρ
  log : List HeapOp

variable (log : List HeapOp)

def allocations (address : Nat) : Nat := log.count (.allocate address)

def frees (address : Nat) : Nat := log.count (.free address)

theorem frees_allocate (a b : Nat) : frees (.allocate a :: log) b = frees log b := by
  simp [frees]

theorem allocations_allocate (a b : Nat) :
    allocations (.allocate a :: log) b = allocations log b + if a = b then 1 else 0 := by
  by_cases same : a = b <;> simp [allocations, same]

structure Allocator (valid : Nat → Prop) where
  next : List HeapOp → Option Nat
  valid_next : ∀ {log address}, next log = some address → valid address
  fresh : ∀ {log address}, next log = some address → allocations log address ≤ frees log address

namespace Heap

variable {ρ : Type}

def write (h : Heap ρ) (address : Nat) (record : ρ) : Heap ρ :=
  { h with cells := fun a => if a = address then some record else h.cells a }

def allocate (h : Heap ρ) (address : Nat) (record : ρ) : Heap ρ :=
  { h.write address record with log := .allocate address :: h.log }

def free (h : Heap ρ) (address : Nat) : Heap ρ := { h with log := .free address :: h.log }

/-- What is allocated and not freed is exactly `records`, each stored under its own address. -/
structure Owns (valid : Nat → Prop) (address : ρ → Nat) (h : Heap ρ) (records : Multiset ρ) : Prop where
  nodup : (records.map address).Nodup
  valid : ∀ r ∈ records, valid (address r)
  stored : ∀ r ∈ records, h.cells (address r) = some r
  balanced : ∀ a, allocations h.log a = frees h.log a + (records.map address).count a

namespace Owns

variable {valid : Nat → Prop} {address : ρ → Nat} {h : Heap ρ} {records : Multiset ρ} {r r' : ρ}

theorem nil (cells : Nat → Option ρ) : Owns valid address ⟨cells, []⟩ 0 where
  nodup := by simp
  valid := by simp
  stored := by simp
  balanced := by simp [allocations, frees]

section

variable (owns : Owns valid address h (r ::ₘ records))
include owns

theorem not_mem : address r ∉ records.map address := by
  have nodup := owns.nodup
  rw [map_cons] at nodup
  exact (nodup_cons.mp nodup).1

theorem write (same : address r' = address r) : Owns valid address (h.write (address r) r') (r' ::ₘ records) where
  nodup := by
    have nodup := owns.nodup
    rwa [map_cons, ← same, ← map_cons] at nodup
  valid := by
    intro x member
    rcases mem_cons.mp member with rfl | member
    · rw [same]
      exact owns.valid r (mem_cons_self _ _)
    · exact owns.valid x (mem_cons_of_mem member)
  stored := by
    intro x member
    rcases mem_cons.mp member with rfl | member
    · simp [Heap.write, same]
    · have other : address x ≠ address r := by
        intro equal
        exact owns.not_mem (equal ▸ mem_map_of_mem address member)
      simp only [Heap.write, other, if_false]
      exact owns.stored x (mem_cons_of_mem member)
  balanced := by
    intro a
    have balanced := owns.balanced a
    rwa [map_cons, ← same, ← map_cons] at balanced

end

theorem allocate (owns : Owns valid address h records) (ok : valid (address r))
    (fresh : allocations h.log (address r) ≤ frees h.log (address r)) :
    Owns valid address (h.allocate (address r) r) (r ::ₘ records) := by
  have absent : address r ∉ records.map address := by
    have balanced := owns.balanced (address r)
    intro member
    have positive := count_pos.mpr member
    omega
  constructor
  · rw [map_cons]
    exact nodup_cons.mpr ⟨absent, owns.nodup⟩
  · intro x member
    rcases mem_cons.mp member with rfl | member
    · exact ok
    · exact owns.valid x member
  · intro x member
    rcases mem_cons.mp member with rfl | member
    · simp [Heap.allocate, Heap.write]
    · have other : address x ≠ address r := by
        intro equal
        exact absent (equal ▸ mem_map_of_mem address member)
      simp only [Heap.allocate, Heap.write, other, if_false]
      exact owns.stored x member
  · intro a
    have balanced := owns.balanced a
    simp only [Heap.allocate, allocations, frees, map_cons, count_cons, List.count_cons]
      at balanced ⊢
    by_cases same : address r = a
    · simp [same]
      omega
    · have flipped : ¬ a = address r := fun equal => same equal.symm
      simp [same, flipped]
      omega

theorem free (owns : Owns valid address h (r ::ₘ records)) : Owns valid address (h.free (address r)) records where
  nodup := by
    have nodup := owns.nodup
    rw [map_cons] at nodup
    exact (nodup_cons.mp nodup).2
  valid := fun x member => owns.valid x (mem_cons_of_mem member)
  stored := fun x member => owns.stored x (mem_cons_of_mem member)
  balanced := by
    intro a
    have balanced := owns.balanced a
    simp only [Heap.free, allocations, frees, map_cons, count_cons, List.count_cons]
      at balanced ⊢
    by_cases same : address r = a
    · simp [same] at balanced ⊢
      omega
    · have flipped : ¬ a = address r := fun equal => same equal.symm
      simp [same, flipped] at balanced ⊢
      omega

theorem card_le (owns : Owns valid address h records) : records.card ≤ h.log.length := by
  have logged : (records.map address).map HeapOp.allocate ≤ (h.log : Multiset HeapOp) := by
    apply (le_iff_subset (owns.nodup.map fun a b same => HeapOp.allocate.inj same)).mpr
    intro op member
    obtain ⟨a, inRecords, rfl⟩ := mem_map.mp member
    have positive := count_pos.mpr inRecords
    have balanced := owns.balanced a
    have counted : 0 < h.log.count (.allocate a) := by
      unfold allocations at balanced
      omega
    exact mem_coe.mpr (List.count_pos_iff.mp counted)
  simpa using card_le_card logged

end Owns

end Heap

end RedDB.Library
