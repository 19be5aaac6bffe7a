import Mathlib

namespace RedDB.Library

open List

/-- The bytes with those from `offset` on replaced by `new`. -/
def splice (bytes : List UInt8) (offset : Nat) (new : List UInt8) : List UInt8 :=
  bytes.take offset ++ new ++ bytes.drop (offset + new.length)

/-- The `n` bytes from `offset` on. -/
def slice (bytes : List UInt8) (offset n : Nat) : List UInt8 := (bytes.drop offset).take n

variable {new : List UInt8}

theorem splice_front {old last : List UInt8} (same : old.length = new.length) :
    splice (old ++ last) 0 new = new ++ last := by
  rw [splice, take_zero, nil_append, Nat.zero_add, ← same, drop_left]

variable {offset : Nat}

theorem splice_skip {first rest : List UInt8} (behind : first.length ≤ offset) :
    splice (first ++ rest) offset new = first ++ splice rest (offset - first.length) new := by
  simp only [splice, take_append, drop_append, take_of_length_le behind,
    drop_eq_nil_of_le (Nat.le_trans behind (Nat.le_add_right _ _)), nil_append, append_assoc,
    Nat.sub_add_comm behind]

theorem slice_front {field last : List UInt8} {n : Nat} (width : field.length = n) :
    slice (field ++ last) 0 n = field := by
  subst width
  rw [slice, drop_zero, take_left]

theorem slice_skip {first rest : List UInt8} {n : Nat} (behind : first.length ≤ offset) :
    slice (first ++ rest) offset n = slice rest (offset - first.length) n := by
  rw [slice, drop_append, drop_eq_nil_of_le behind, nil_append, slice]

theorem length_splice {bytes : List UInt8} (inside : offset + new.length ≤ bytes.length) :
    (splice bytes offset new).length = bytes.length := by
  simp only [splice, length_append, length_take, length_drop]
  omega

structure FileImage where
  size : Nat
  byte : Nat → UInt8

namespace FileImage

def empty : FileImage := ⟨0, fun _ => 0⟩

def write (f : FileImage) (offset : Nat) (bytes : List UInt8) : FileImage where
  size := if bytes = [] then f.size else max f.size (offset + bytes.length)
  byte i := if offset ≤ i ∧ i < offset + bytes.length then bytes.getD (i - offset) 0 else f.byte i

def read (f : FileImage) (offset n : Nat) : List UInt8 := (List.range n).map fun i => f.byte (offset + i)

@[simp] theorem length_read (f : FileImage) (offset n : Nat) : (f.read offset n).length = n := by
  simp [read]

variable {n : Nat}

theorem head?_read (f : FileImage) (offset : Nat) (some : 0 < n) :
    (f.read offset n).head? = .some (f.byte offset) := by
  cases n with
  | zero => exact absurd some (Nat.lt_irrefl 0)
  | succ n => simp [read, range_succ_eq_map]

variable {offset : Nat}

theorem read_congr {f g : FileImage} (same : ∀ i < n, f.byte (offset + i) = g.byte (offset + i)) :
    f.read offset n = g.read offset n :=
  map_congr_left fun i member => same i (mem_range.mp member)

variable {start : Nat}

theorem slice_read (f : FileImage) {m : Nat} (inside : start + m ≤ n) :
    slice (f.read offset n) start m = f.read (offset + start) m := by
  refine ext_getElem ?_ fun i _ _ => ?_
  · simp only [slice, length_take, length_drop, length_read]
    omega
  · simp [slice, read, Nat.add_assoc]

variable {bytes : List UInt8}

section

variable (f : FileImage)
include f

theorem read_write (offset : Nat) (width : bytes.length = n) : (f.write offset bytes).read offset n = bytes := by
  subst width
  refine ext_getElem (length_read _ _ _) fun i _ inside => ?_
  simp [read, write, inside]

theorem read_write_inside (offset : Nat)
    (inside : start + n ≤ bytes.length) : (f.write offset bytes).read (offset + start) n = slice bytes start n := by
  rw [← slice_read _ inside, read_write f offset rfl]

theorem read_write_of_disjoint (disjoint : start + n ≤ offset ∨ offset + bytes.length ≤ start) :
    (f.write offset bytes).read start n = f.read start n := by
  refine read_congr fun i inside => if_neg ?_
  omega

theorem read_add (offset n m : Nat) : f.read offset (n + m) = f.read offset n ++ f.read (offset + n) m := by
  simp [read, range_add, Nat.add_assoc]

end

end FileImage

end RedDB.Library
