import RedDB.Library.FileImage

namespace RedDB.Library

open List

structure DiskWrite where
  offset : Nat
  bytes : List UInt8

namespace DiskWrite

variable (w : DiskWrite)

def Covers (i : Nat) : Prop := w.offset ≤ i ∧ i < w.offset + w.bytes.length

def byte (i : Nat) : UInt8 := w.bytes.getD (i - w.offset) 0

def extent : Nat := if w.bytes = [] then 0 else w.offset + w.bytes.length

end DiskWrite

namespace FileImage

def writeAll (f : FileImage) (ws : List DiskWrite) : FileImage := ws.foldl (fun f w => f.write w.offset w.bytes) f

section

variable {f g : FileImage} {ws : List DiskWrite} {i : Nat}

@[simp] theorem writeAll_nil (f : FileImage) : f.writeAll [] = f := rfl

@[simp] theorem writeAll_cons (f : FileImage) (w : DiskWrite) (ws : List DiskWrite) :
    f.writeAll (w :: ws) = (f.write w.offset w.bytes).writeAll ws := rfl

theorem writeAll_append (f : FileImage) (ws vs : List DiskWrite) : f.writeAll (ws ++ vs) = (f.writeAll ws).writeAll vs :=
  foldl_append

theorem byte_write_of_covers {w : DiskWrite} (covered : w.Covers i) : (f.write w.offset w.bytes).byte i = w.byte i :=
  if_pos covered

theorem byte_write_of_not_covers {w : DiskWrite} (clear : ¬w.Covers i) : (f.write w.offset w.bytes).byte i = f.byte i :=
  if_neg clear

theorem byte_writeAll_of_not_covers (clear : ∀ w ∈ ws, ¬w.Covers i) : (f.writeAll ws).byte i = f.byte i := by
  induction ws generalizing f with
  | nil => rfl
  | cons w ws ih =>
    rw [writeAll_cons, ih fun v member => clear v (mem_cons_of_mem w member)]
    exact byte_write_of_not_covers (clear w (mem_cons_self ..))

theorem byte_writeAll_of_covers (covered : ∃ w ∈ ws, w.Covers i) : (f.writeAll ws).byte i = (g.writeAll ws).byte i := by
  induction ws generalizing f g with
  | nil =>
    obtain ⟨w, member, -⟩ := covered
    cases member
  | cons w ws ih =>
    rw [writeAll_cons, writeAll_cons]
    by_cases later : ∃ v ∈ ws, v.Covers i
    · exact ih later
    · have clear : ∀ v ∈ ws, ¬v.Covers i := fun v member covers => later ⟨v, member, covers⟩
      obtain ⟨v, member, covers⟩ := covered
      rcases mem_cons.mp member with rfl | member
      · rw [byte_writeAll_of_not_covers clear, byte_writeAll_of_not_covers clear, byte_write_of_covers covers,
          byte_write_of_covers covers]
      · exact absurd ⟨v, member, covers⟩ later

theorem size_write (f : FileImage) (w : DiskWrite) : (f.write w.offset w.bytes).size = max f.size w.extent := by
  simp only [write, DiskWrite.extent]
  split_ifs
  · rw [Nat.max_zero]
  · rfl

theorem le_size_writeAll : f.size ≤ (f.writeAll ws).size := by
  induction ws generalizing f with
  | nil => exact Nat.le_refl _
  | cons w ws ih =>
    have first : f.size ≤ (f.write w.offset w.bytes).size := by
      rw [size_write]
      exact Nat.le_max_left _ _
    exact Nat.le_trans first ih

theorem size_writeAll_le {bound : Nat} :
    (f.writeAll ws).size ≤ bound ↔ f.size ≤ bound ∧ ∀ w ∈ ws, w.extent ≤ bound := by
  induction ws generalizing f with
  | nil => simp
  | cons w ws ih =>
    rw [writeAll_cons, ih, size_write, Nat.max_le, forall_mem_cons, and_assoc]

theorem size_writeAll_congr (grown : f.size ≤ g.size) (bounded : g.size ≤ (f.writeAll ws).size) :
    (g.writeAll ws).size = (f.writeAll ws).size := by
  have ends := (size_writeAll_le.mp (Nat.le_refl (f.writeAll ws).size)).2
  have ends' := (size_writeAll_le.mp (Nat.le_refl (g.writeAll ws).size)).2
  exact Nat.le_antisymm (size_writeAll_le.mpr ⟨bounded, ends⟩)
    (size_writeAll_le.mpr ⟨Nat.le_trans grown le_size_writeAll, ends'⟩)

theorem ext {f g : FileImage} (size : f.size = g.size) (byte : ∀ i, f.byte i = g.byte i) : f = g := by
  cases f
  cases g
  cases size
  congr
  exact funext byte

theorem writeAll_writeAll (f : FileImage) (ws : List DiskWrite) : (f.writeAll ws).writeAll ws = f.writeAll ws := by
  refine ext (size_writeAll_congr le_size_writeAll (Nat.le_refl _)) fun i => ?_
  by_cases covered : ∃ w ∈ ws, w.Covers i
  · exact byte_writeAll_of_covers covered
  · exact byte_writeAll_of_not_covers fun w member covers => covered ⟨w, member, covers⟩

end

/-- The files differ in the bytes from `first` to `last` only. -/
structure AgreeOutside (first last : Nat) (f g : FileImage) : Prop where
  size : f.size = g.size
  byte : ∀ i, i < first ∨ last ≤ i → f.byte i = g.byte i

namespace AgreeOutside

variable {first last : Nat} {f g h : FileImage}

theorem refl (f : FileImage) : AgreeOutside first last f f := ⟨rfl, fun _ _ => rfl⟩

theorem symm (agree : AgreeOutside first last f g) : AgreeOutside first last g f :=
  ⟨agree.size.symm, fun i outside => (agree.byte i outside).symm⟩

theorem trans (one : AgreeOutside first last f g) (two : AgreeOutside first last g h) : AgreeOutside first last f h :=
  ⟨one.size.trans two.size, fun i outside => (one.byte i outside).trans (two.byte i outside)⟩

section

variable (agree : AgreeOutside first last f g)
include agree

theorem write (offset : Nat) (bytes : List UInt8) :
    AgreeOutside first last (f.write offset bytes) (g.write offset bytes) := by
  refine ⟨?_, fun i outside => ?_⟩
  · simp only [FileImage.write, agree.size]
  · simp only [FileImage.write, agree.byte i outside]

theorem writeAll (ws : List DiskWrite) : AgreeOutside first last (f.writeAll ws) (g.writeAll ws) := by
  induction ws generalizing f g with
  | nil => exact agree
  | cons w ws ih => exact ih (agree.write w.offset w.bytes)

theorem read {offset n : Nat} (outside : offset + n ≤ first ∨ last ≤ offset) : f.read offset n = g.read offset n := by
  refine read_congr fun i inside => agree.byte _ ?_
  omega

end

end AgreeOutside

theorem agreeOutside_writeAll {first last : Nat} {f : FileImage} {ws : List DiskWrite} (sized : last ≤ f.size)
    (inside : ∀ w ∈ ws, first ≤ w.offset ∧ w.offset + w.bytes.length ≤ last) :
    AgreeOutside first last (f.writeAll ws) f := by
  refine ⟨Nat.le_antisymm (size_writeAll_le.mpr ⟨Nat.le_refl _, fun w member => ?_⟩) le_size_writeAll, fun i outside => ?_⟩
  · rw [DiskWrite.extent]
    split_ifs
    · exact Nat.zero_le _
    · exact Nat.le_trans (inside w member).2 sized
  · refine byte_writeAll_of_not_covers fun w member covers => ?_
    have bounds := inside w member
    have position := And.intro covers.1 covers.2
    omega

theorem read_writeAll_of_disjoint {f : FileImage} {ws : List DiskWrite} {offset n : Nat}
    (elsewhere : ∀ w ∈ ws, w.offset + w.bytes.length ≤ offset ∨ offset + n ≤ w.offset) :
    (f.writeAll ws).read offset n = f.read offset n := by
  refine read_congr fun i inside => byte_writeAll_of_not_covers fun w member covers => ?_
  have bounds := elsewhere w member
  have position := And.intro covers.1 covers.2
  omega

end FileImage

inductive DiskOp
  | write (w : DiskWrite)
  | sync

structure Disk where
  durable : FileImage
  pending : List DiskWrite

namespace Disk

section

variable (f : FileImage) (d : Disk)

def view : FileImage := d.durable.writeAll d.pending

def apply : DiskOp → Disk
  | .write w => ⟨d.durable, d.pending ++ [w]⟩
  | .sync => ⟨d.view, []⟩

def run (ops : List DiskOp) : Disk := ops.foldl apply d

def synced : Disk := ⟨f, []⟩

@[simp] theorem view_synced : (synced f).view = f := rfl

/-- What a crash can leave: every byte is the durable one or one that a pending write put there, and the
    file has grown no further than the pending writes would make it. -/
structure Crashed (d : Disk) (left : FileImage) : Prop where
  grown : d.durable.size ≤ left.size
  bounded : left.size ≤ d.view.size
  byte : ∀ i, left.byte i = d.durable.byte i ∨ i < left.size ∧ ∃ w ∈ d.pending, w.Covers i ∧ left.byte i = w.byte i

variable (ws : List DiskWrite)

def barrier : List DiskOp := ws.map .write ++ [.sync]

theorem run_append (ops more : List DiskOp) : d.run (ops ++ more) = (d.run ops).run more := foldl_append

theorem run_writes : d.run (ws.map .write) = ⟨d.durable, d.pending ++ ws⟩ := by
  induction ws generalizing d with
  | nil => simp [run]
  | cons w ws ih =>
    change (d.apply (.write w)).run (ws.map .write) = _
    rw [ih]
    simp [apply]

theorem run_barrier : (synced f).run (barrier ws) = synced (f.writeAll ws) := by
  rw [barrier, run_append, run_writes]
  rfl

theorem run_take_barrier (ops : List DiskOp) (n : Nat) :
    (synced f).run ((barrier ws ++ ops).take n) = ⟨f, ws.take n⟩ ∨
      ∃ m, (synced f).run ((barrier ws ++ ops).take n) = (synced (f.writeAll ws)).run (ops.take m) := by
  by_cases early : n ≤ ws.length
  · left
    rw [barrier, append_assoc, take_append_of_le_length (by simpa using early), ← map_take, run_writes]
    rfl
  · right
    refine ⟨n - (ws.length + 1), ?_⟩
    have behind : (barrier ws).length ≤ n := by
      simp only [barrier, length_append, length_map, length_singleton]
      omega
    rw [take_append, take_of_length_le behind, run_append, run_barrier]
    simp [barrier]

end

section

variable {f left : FileImage} {pending ws : List DiskWrite}

theorem Crashed.byte_of_not_covers (crashed : Crashed ⟨f, pending⟩ left) {i : Nat} (clear : ∀ w ∈ pending, ¬w.Covers i) :
    left.byte i = f.byte i := by
  rcases crashed.byte i with same | ⟨-, w, member, covers, -⟩
  · exact same
  · exact absurd covers (clear w member)

theorem Crashed.of_synced (crashed : (synced f).Crashed left) : left = f :=
  FileImage.ext (Nat.le_antisymm crashed.bounded crashed.grown) fun _ =>
    crashed.byte_of_not_covers fun _ member => by cases member

theorem Crashed.redo (crashed : Crashed ⟨f, pending⟩ left) (known : pending ⊆ ws) :
    left.writeAll ws = f.writeAll ws := by
  have ends := (FileImage.size_writeAll_le.mp (Nat.le_refl (f.writeAll ws).size)).2
  have bounded : left.size ≤ (f.writeAll ws).size :=
    Nat.le_trans crashed.bounded (FileImage.size_writeAll_le.mpr
      ⟨FileImage.le_size_writeAll, fun w member => ends w (known member)⟩)
  refine FileImage.ext (FileImage.size_writeAll_congr crashed.grown bounded) fun i => ?_
  by_cases covered : ∃ w ∈ ws, w.Covers i
  · exact FileImage.byte_writeAll_of_covers covered
  · have clear : ∀ w ∈ ws, ¬w.Covers i := fun w member covers => covered ⟨w, member, covers⟩
    rw [FileImage.byte_writeAll_of_not_covers clear, FileImage.byte_writeAll_of_not_covers clear]
    exact crashed.byte_of_not_covers fun w member => clear w (known member)

theorem Crashed.agreeOutside {first last : Nat} (crashed : Crashed ⟨f, pending⟩ left) (sized : last ≤ f.size)
    (inside : ∀ w ∈ pending, first ≤ w.offset ∧ w.offset + w.bytes.length ≤ last) :
    FileImage.AgreeOutside first last left f := by
  have fits : (f.writeAll pending).size = f.size := (FileImage.agreeOutside_writeAll sized inside).size
  refine ⟨Nat.le_antisymm (Nat.le_trans crashed.bounded (Nat.le_of_eq fits)) crashed.grown, fun i outside => ?_⟩
  refine crashed.byte_of_not_covers fun w member covers => ?_
  have bounds := inside w member
  have position := And.intro covers.1 covers.2
  omega

theorem Crashed.read {offset n : Nat} (crashed : Crashed ⟨f, pending⟩ left)
    (elsewhere : ∀ w ∈ pending, w.offset + w.bytes.length ≤ offset ∨ offset + n ≤ w.offset) :
    left.read offset n = f.read offset n := by
  refine FileImage.read_congr fun i inside => crashed.byte_of_not_covers fun w member covers => ?_
  have bounds := elsewhere w member
  have position := And.intro covers.1 covers.2
  omega

theorem crashed_synced (f : FileImage) : (synced f).Crashed f := ⟨Nat.le_refl _, Nat.le_refl _, fun _ => .inl rfl⟩

theorem crashed_take (f : FileImage) (w : DiskWrite) (n : Nat) :
    Crashed ⟨f, [w]⟩ (f.write w.offset (w.bytes.take n)) := by
  have size := FileImage.size_write f ⟨w.offset, w.bytes.take n⟩
  have full : (view ⟨f, [w]⟩).size = max f.size w.extent := FileImage.size_write f w
  have length : (w.bytes.take n).length ≤ w.bytes.length := length_take_le' _ _
  refine ⟨?_, ?_, fun i => ?_⟩
  · rw [size]
    exact Nat.le_max_left _ _
  · rw [size, full]
    refine Nat.max_le.mpr ⟨Nat.le_max_left _ _, Nat.le_trans ?_ (Nat.le_max_right _ _)⟩
    rw [DiskWrite.extent]
    split_ifs with cut
    · exact Nat.zero_le _
    · have whole : w.bytes ≠ [] := fun empty => cut (by rw [empty, take_nil])
      rw [DiskWrite.extent, if_neg whole]
      exact Nat.add_le_add_left length _
  · by_cases covers : DiskWrite.Covers ⟨w.offset, w.bytes.take n⟩ i
    · have inside : i - w.offset < (w.bytes.take n).length := by
        have position := And.intro covers.1 covers.2
        dsimp only at position
        omega
      have early : i - w.offset < n := Nat.lt_of_lt_of_le inside (length_take_le _ _)
      have written : (f.write w.offset (w.bytes.take n)).byte i = DiskWrite.byte ⟨w.offset, w.bytes.take n⟩ i :=
        FileImage.byte_write_of_covers covers
      refine .inr ⟨?_, w, mem_singleton_self w, ⟨covers.1, Nat.lt_of_lt_of_le covers.2 (Nat.add_le_add_left length _)⟩,
        ?_⟩
      · rw [size]
        refine Nat.lt_of_lt_of_le covers.2 (Nat.le_trans ?_ (Nat.le_max_right _ _))
        simp only [DiskWrite.extent, if_neg (ne_nil_of_length_pos (Nat.zero_lt_of_lt inside)), Nat.le_refl]
      · rw [written, DiskWrite.byte, DiskWrite.byte, getD_eq_getElem?_getD, getD_eq_getElem?_getD,
          getElem?_take_of_lt early]
    · exact .inl (FileImage.byte_write_of_not_covers covers)

end

end Disk

end RedDB.Library
