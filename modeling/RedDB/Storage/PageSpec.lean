import RedDB.Library.Cut
import RedDB.Storage.BTree

namespace RedDB.Storage

open List Library Library.Cut

section

def cellsSize (entries : List (Bytes × Bytes)) : Nat := (entries.map fun e => 4 + e.1.length + e.2.length).sum

@[simp] theorem cellsSize_nil : cellsSize [] = 0 := rfl

@[simp] theorem cellsSize_cons (e : Bytes × Bytes) (entries : List (Bytes × Bytes)) :
    cellsSize (e :: entries) = 4 + e.1.length + e.2.length + cellsSize entries := rfl

@[simp] theorem leafEntriesSize_nil : leafEntriesSize [] = 0 := rfl

@[simp] theorem leafEntriesSize_cons (e : Bytes × Bytes) (entries : List (Bytes × Bytes)) :
    leafEntriesSize (e :: entries) = leafEntrySize e + leafEntriesSize entries := rfl

@[simp] theorem leafEntriesSize_append (xs ys : List (Bytes × Bytes)) :
    leafEntriesSize (xs ++ ys) = leafEntriesSize xs + leafEntriesSize ys := by
  simp [leafEntriesSize]

theorem leafEntriesSize_eq (entries : List (Bytes × Bytes)) :
    leafEntriesSize entries = cellsSize entries + entries.length * 2 := by
  induction entries with
  | nil => rfl
  | cons e entries ih =>
    rw [leafEntriesSize_cons, cellsSize_cons, length_cons, ih]
    unfold leafEntrySize
    omega

end

section

theorem layLeafCells_ok (page : Page) (entries : List (Bytes × Bytes))
    (room : 40 + (page.leafCells.length + entries.length) * 2 + cellsSize entries ≤ page.freeEnd) :
    layLeafCells page entries =
      .ok { page with freeEnd := page.freeEnd - cellsSize entries, leafCells := page.leafCells ++ entries } := by
  induction entries generalizing page with
  | nil => simp [layLeafCells]
  | cons e entries ih =>
    obtain ⟨k, v⟩ := e
    simp only [cellsSize_cons, length_cons] at room
    have start : leafCellsStart page = page.freeEnd := by
      unfold leafCellsStart
      rw [if_neg (by omega)]
    unfold layLeafCells
    simp only [start, leafSlotArrayOffset, headerSize]
    rw [if_neg (by omega), ih]
    · simp only [cellsSize_cons, append_assoc, singleton_append]
      rw [Nat.sub_sub]
    · simp only [length_append, length_singleton]
      omega

theorem writeLeafEntries_ok (page : Page) {entries : List (Bytes × Bytes)}
    (fits : leafEntriesSize entries ≤ leafCapacity) :
    writeLeafEntries page entries =
      .ok { page with freeEnd := pageSize - cellsSize entries, leafCells := entries } := by
  rw [leafEntriesSize_eq] at fits
  simp only [leafCapacity, pageSize, leafSlotArrayOffset, headerSize] at fits
  unfold writeLeafEntries
  rw [layLeafCells_ok]
  · rfl
  · simp only [clearLeafCells, length_nil, pageSize]
    omega

end

end RedDB.Storage
