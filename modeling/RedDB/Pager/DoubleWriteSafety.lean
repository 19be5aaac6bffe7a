import RedDB.Pager.DoubleWriteFrame
import RedDB.Wal.Record

namespace RedDB.Pager

open List Library Disk FileImage Wal

abbrev SameHomes (f g : FileImage) : Prop := FileImage.AgreeOutside dwbZoneOffset dwbZoneEnd f g

section

variable {crc32 : Bytes → UInt32} {f : FileImage}

theorem homeWrites_outside {entries : List PagedDwbEntry} (home : ∀ entry ∈ entries, entry.Home) {w : DiskWrite}
    (member : w ∈ homeWrites entries) :
    w.offset + w.bytes.length ≤ dwbZoneOffset ∨ dwbZoneOffset + dwbZoneBytes ≤ w.offset := by
  obtain ⟨entry, listed, rfl⟩ := mem_map.mp member
  have position := home entry listed
  rw [writePage, entry.page.2]
  simp only [PagedDwbEntry.Home, firstAllocatablePage, dwbZoneOffset, dwbZoneBytes, dwbZoneStartPage, dwbZonePages,
    pageSize] at position ⊢
  omega

theorem clearWrites_inside {w : DiskWrite} (member : w ∈ clearWrites crc32) :
    dwbZoneOffset ≤ w.offset ∧ w.offset + w.bytes.length ≤ dwbZoneEnd := by
  obtain ⟨pageId, range, rfl⟩ := mem_map.mp member
  have bounds := mem_range'_1.mp range
  rw [writePage, (updateChecksum crc32 (newPage .header pageId)).2]
  simp only [dwbZoneEnd, dwbZoneOffset, dwbZoneBytes, dwbZoneStartPage, dwbZonePages, pageSize] at bounds ⊢
  omega

theorem frame_inside {chunk : List PagedDwbEntry} (few : chunk.length ≤ 63) :
    dwbZoneOffset ≤ dwbZoneOffset ∧ dwbZoneOffset + (encodePagedDwbFrame crc32 chunk).length ≤ dwbZoneEnd :=
  ⟨le_rfl, Nat.add_le_add_left (length_frame_le few) _⟩

theorem sameHomes_writeAll {ws : List DiskWrite} (sized : dwbZoneEnd ≤ f.size)
    (inside : ∀ w ∈ ws, dwbZoneOffset ≤ w.offset ∧ w.offset + w.bytes.length ≤ dwbZoneEnd) :
    SameHomes (f.writeAll ws) f :=
  agreeOutside_writeAll sized inside

theorem staged_homeWrites {entries : List PagedDwbEntry} (home : ∀ entry ∈ entries, entry.Home) :
    staged crc32 (f.writeAll (homeWrites entries)) = staged crc32 f :=
  staged_congr (read_writeAll_of_disjoint fun _ member => homeWrites_outside home member)

end

/-- A recovery of `file` ends with the home pages of `target`. -/
structure Restores (crc32 : Bytes → UInt32) (file target : FileImage) : Prop where
  sized : dwbZoneEnd ≤ file.size
  home : ∀ entries ∈ staged crc32 file, ∀ entry ∈ entries, entry.Home
  replayed : SameHomes (file.writeAll (homeWrites ((staged crc32 file).getD []))) target

/-- The checksum rejects a torn frame: what a crash leaves in the zone is no complete frame, unless it is the
    frame that was there before or the one that was being written. -/
def FrameRejected (crc32 : Bytes → UInt32) (d : Disk) (left : FileImage) : Prop :=
  ∀ entries, staged crc32 left = some entries →
    staged crc32 d.durable = some entries ∨ staged crc32 d.view = some entries

section

variable {crc32 : Bytes → UInt32} {f left target : FileImage}

theorem Restores.of_none (sized : dwbZoneEnd ≤ f.size) (none : staged crc32 f = none) (same : SameHomes f target) :
    Restores crc32 f target where
  sized := sized
  home := fun entries found => by
    rw [none] at found
    cases found
  replayed := by
    rw [none]
    exact same

variable {entries : List PagedDwbEntry}

theorem Restores.of_some (sized : dwbZoneEnd ≤ f.size)
    (found : staged crc32 f = some entries) (home : ∀ entry ∈ entries, entry.Home)
    (same : SameHomes (f.writeAll (homeWrites entries)) target) : Restores crc32 f target where
  sized := sized
  home := fun others found' => by
    rw [found] at found'
    cases found'
    exact home
  replayed := by
    rw [found]
    exact same

theorem Restores.replay (restores : Restores crc32 f target) (found : staged crc32 f = some entries) :
    (∀ entry ∈ entries, entry.Home) ∧ SameHomes (f.writeAll (homeWrites entries)) target := by
  have replayed := restores.replayed
  rw [found] at replayed
  exact ⟨restores.home entries found, replayed⟩

theorem Restores.congr {other : FileImage} (restores : Restores crc32 f target) (same : SameHomes target other) :
    Restores crc32 f other := ⟨restores.sized, restores.home, restores.replayed.trans same⟩

section

variable (restores : Restores crc32 f target)
include restores

theorem Restores.kept (done : SameHomes f target) (same : SameHomes left f)
    (frame : ∀ entries, staged crc32 left = some entries → staged crc32 f = some entries) :
    Restores crc32 left target := by
  have sized : dwbZoneEnd ≤ left.size := le_trans restores.sized (le_of_eq same.size.symm)
  cases found : staged crc32 left with
  | none => exact .of_none sized found (same.trans done)
  | some entries =>
    obtain ⟨home, replayed⟩ := restores.replay (frame entries found)
    exact .of_some sized found home ((same.writeAll _).trans replayed)

theorem Restores.crash_clear (done : SameHomes f target) {n : Nat}
    (crashed : Disk.Crashed ⟨f, (clearWrites crc32).take n⟩ left)
    (rejected : FrameRejected crc32 ⟨f, (clearWrites crc32).take n⟩ left) : Restores crc32 left target := by
  have same : SameHomes left f :=
    crashed.agreeOutside restores.sized fun w member => clearWrites_inside (mem_of_mem_take member)
  refine restores.kept done same fun entries found => ?_
  rcases rejected entries found with before | after
  · exact before
  · by_cases started : n = 0
    · rw [started] at after
      exact after
    · rw [view, staged_clear started] at after
      cases after

theorem Restores.crash_homes (found : staged crc32 f = some entries) {n : Nat}
    (crashed : Disk.Crashed ⟨f, (homeWrites entries).take n⟩ left) : Restores crc32 left target := by
  obtain ⟨home, replayed⟩ := restores.replay found
  have sized : dwbZoneEnd ≤ left.size := le_trans restores.sized crashed.grown
  have same : staged crc32 left = staged crc32 f :=
    staged_congr (crashed.read fun w member => homeWrites_outside home (mem_of_mem_take member))
  refine .of_some sized (same.trans found) home ?_
  rw [crashed.redo (take_subset _ _)]
  exact replayed

theorem Restores.homes_written (found : staged crc32 f = some entries) :
    Restores crc32 (f.writeAll (homeWrites entries)) target ∧ SameHomes (f.writeAll (homeWrites entries)) target := by
  obtain ⟨home, replayed⟩ := restores.replay found
  have sized : dwbZoneEnd ≤ (f.writeAll (homeWrites entries)).size := le_trans restores.sized le_size_writeAll
  refine ⟨.of_some sized ((staged_homeWrites home).trans found) home ?_, replayed⟩
  rw [writeAll_writeAll]
  exact replayed

end

section

variable {chunk : List PagedDwbEntry}

section

variable (settled : Restores crc32 f f) (few : chunk.length ≤ 63) (home : ∀ entry ∈ chunk, entry.Home)
include settled few home

theorem Restores.frame_written :
    Restores crc32 (f.write dwbZoneOffset (encodePagedDwbFrame crc32 chunk)) (f.writeAll (homeWrites chunk)) := by
  have same : SameHomes (f.writeAll [⟨dwbZoneOffset, encodePagedDwbFrame crc32 chunk⟩]) f := by
    refine sameHomes_writeAll settled.sized fun w member => ?_
    rw [mem_singleton.mp member]
    exact frame_inside few
  exact .of_some (le_trans settled.sized (le_of_eq same.size.symm)) (staged_write_frame few) home (same.writeAll _)

theorem Restores.crash_staging {n : Nat}
    (crashed : Disk.Crashed ⟨f, [⟨dwbZoneOffset, encodePagedDwbFrame crc32 chunk⟩].take n⟩ left)
    (rejected : FrameRejected crc32 ⟨f, [⟨dwbZoneOffset, encodePagedDwbFrame crc32 chunk⟩].take n⟩ left) :
    Restores crc32 left f ∨ Restores crc32 left (f.writeAll (homeWrites chunk)) := by
  have same : SameHomes left f := by
    refine crashed.agreeOutside settled.sized fun w member => ?_
    rw [mem_singleton.mp (mem_of_mem_take member)]
    exact frame_inside few
  by_cases new : staged crc32 left = some chunk
  · exact .inr (.of_some (le_trans settled.sized (le_of_eq same.size.symm)) new home (same.writeAll _))
  · refine .inl (settled.kept (.refl f) same fun entries found => ?_)
    rcases rejected entries found with before | after
    · exact before
    · cases n with
      | zero => exact after
      | succ n =>
        rw [view, take_succ_cons, take_nil, writeAll_cons, writeAll_nil, staged_write_frame few] at after
        exact absurd (found.trans after.symm) new

end

end

end

structure Ready (crc32 : Bytes → UInt32) (file : FileImage) : Prop where
  sized : dwbZoneEnd ≤ file.size
  idle : staged crc32 file = none

section

variable {crc32 : Bytes → UInt32} {f left target : FileImage}

theorem Ready.restores (ready : Ready crc32 f) (same : SameHomes f target) : Restores crc32 f target :=
  .of_none ready.sized ready.idle same

theorem extent_writePage (pageId : Nat) (page : PageImage) :
    (writePage pageId page).extent = pageId * pageSize + pageSize := by
  have some : page.1 ≠ [] := ne_nil_of_length_pos (by rw [page.2]; decide)
  rw [DiskWrite.extent, writePage, if_neg some, page.2]

theorem ready_clear (crc32 : Bytes → UInt32) (f : FileImage) : Ready crc32 (f.writeAll (clearWrites crc32)) := by
  have pages : (clearWrites crc32).length ≠ 0 := by simp [clearWrites, dwbZonePages]
  have idle : staged crc32 (f.writeAll ((clearWrites crc32).take (clearWrites crc32).length)) = none :=
    staged_clear pages
  rw [take_length] at idle
  have last : writePage 66 (updateChecksum crc32 (newPage .header 66)) ∈ clearWrites crc32 :=
    mem_map_of_mem (mem_range'_1.mpr (by decide))
  have ends := (size_writeAll_le.mp (Nat.le_refl (f.writeAll (clearWrites crc32)).size)).2 _ last
  rw [extent_writePage] at ends
  exact ⟨ends, idle⟩

theorem sameHomes_clear (crc32 : Bytes → UInt32) (sized : dwbZoneEnd ≤ f.size) :
    SameHomes (f.writeAll (clearWrites crc32)) f := sameHomes_writeAll sized fun _ => clearWrites_inside

variable {n : Nat}

theorem Restores.crash_clearing (restores : Restores crc32 f target) (done : SameHomes f target)
    (crashed : ((synced f).run ((clearDwbZone crc32).take n)).Crashed left)
    (rejected : FrameRejected crc32 ((synced f).run ((clearDwbZone crc32).take n)) left) :
    Restores crc32 left target := by
  have program : clearDwbZone crc32 = barrier (clearWrites crc32) ++ [] := (append_nil _).symm
  rw [program] at crashed rejected
  rcases run_take_barrier f (clearWrites crc32) [] n with before | ⟨m, behind⟩
  · rw [before] at crashed rejected
    exact restores.crash_clear done crashed rejected
  · rw [behind, take_nil] at crashed
    rw [crashed.of_synced]
    exact (ready_clear crc32 f).restores ((sameHomes_clear crc32 restores.sized).trans done)

theorem recoverFromDwb_cases (sized : dwbZoneEnd ≤ f.size) :
    staged crc32 f = none ∧ (recoverFromDwb crc32 f = [] ∨ recoverFromDwb crc32 f = clearDwbZone crc32) ∨
      ∃ entries, staged crc32 f = some entries ∧
        recoverFromDwb crc32 f = barrier (homeWrites entries) ++ clearDwbZone crc32 := by
  have long : ¬f.size < dwbZoneOffset + dwbZoneBytes := not_lt.mpr sized
  rw [recoverFromDwb, if_neg long]
  by_cases magic : (f.read dwbZoneOffset dwbZoneBytes).take 4 = dwbMagic
  · rw [if_neg (not_not_intro magic), staged, zone]
    cases decodePagedDwbFrame crc32 (f.read dwbZoneOffset dwbZoneBytes) with
    | error => exact .inl ⟨rfl, .inr rfl⟩
    | ok entries => exact .inr ⟨entries, rfl, rfl⟩
  · rw [if_pos magic]
    refine .inl ⟨decode_of_magic magic, ?_⟩
    split_ifs
    · exact .inl rfl
    · exact .inr rfl

theorem Restores.crash_recovering (restores : Restores crc32 f target)
    (crashed : ((synced f).run ((recoverFromDwb crc32 f).take n)).Crashed left)
    (rejected : FrameRejected crc32 ((synced f).run ((recoverFromDwb crc32 f).take n)) left) :
    Restores crc32 left target := by
  rcases recoverFromDwb_cases restores.sized with ⟨none, program | program⟩ | ⟨entries, found, program⟩
  · rw [program, take_nil] at crashed
    rw [crashed.of_synced]
    exact restores
  · have done := restores.replayed
    rw [none] at done
    rw [program] at crashed rejected
    exact restores.crash_clearing done crashed rejected
  · rw [program] at crashed rejected
    rcases run_take_barrier f (homeWrites entries) (clearDwbZone crc32) n with before | ⟨m, behind⟩
    · rw [before] at crashed
      exact restores.crash_homes found crashed
    · rw [behind] at crashed rejected
      obtain ⟨restores, done⟩ := restores.homes_written found
      exact restores.crash_clearing done crashed rejected

def recovered (crc32 : Bytes → UInt32) (file : FileImage) : FileImage :=
  ((synced file).run (recoverFromDwb crc32 file)).view

theorem Restores.recovered (restores : Restores crc32 f target) :
    Ready crc32 (recovered crc32 f) ∧ SameHomes (recovered crc32 f) target := by
  have clear (g : FileImage) : ((synced g).run (clearDwbZone crc32)).view = g.writeAll (clearWrites crc32) := by
    rw [clearDwbZone, ← barrier, run_barrier, view_synced]
  rw [Pager.recovered]
  rcases recoverFromDwb_cases restores.sized with ⟨none, program | program⟩ | ⟨entries, found, program⟩
  · have done := restores.replayed
    rw [none] at done
    rw [program]
    exact ⟨⟨restores.sized, none⟩, done⟩
  · have done := restores.replayed
    rw [none] at done
    rw [program, clear]
    exact ⟨ready_clear crc32 _, (sameHomes_clear crc32 restores.sized).trans done⟩
  · obtain ⟨restores, done⟩ := restores.homes_written found
    rw [program, run_append, run_barrier, clear]
    exact ⟨ready_clear crc32 _, (sameHomes_clear crc32 restores.sized).trans done⟩

/-- The frames that `write_pages` stages one after the other, each followed by its homes. -/
def stagedWrites (crc32 : Bytes → UInt32) (frames : List (List PagedDwbEntry)) : List DiskOp :=
  frames.flatMap fun chunk =>
    barrier [⟨dwbZoneOffset, encodePagedDwbFrame crc32 chunk⟩] ++ barrier (homeWrites chunk)

theorem writePages_nil : writePages crc32 [] true = [] := by simp [writePages, chunks]

theorem writePages_eq {pages : List PagedDwbEntry} (some : pages ≠ []) :
    writePages crc32 pages true = stagedWrites crc32 (chunks 63 pages) ++ clearDwbZone crc32 := by
  have nonempty : pages.isEmpty = false := by simpa using some
  rw [writePages, nonempty, dwbMaxPagesPerFrame_eq]
  rfl

def Stageable (frames : List (List PagedDwbEntry)) : Prop :=
  ∀ chunk ∈ frames, chunk.length ≤ 63 ∧ ∀ entry ∈ chunk, entry.Home

theorem stageable_chunks {pages : List PagedDwbEntry} (home : ∀ entry ∈ pages, entry.Home) :
    Stageable (chunks 63 pages) := by
  refine fun chunk member => ⟨length_of_mem_chunks (by decide) member, fun entry listed => home entry ?_⟩
  rw [← flatten_chunks 63 pages]
  exact mem_flatten_of_mem member listed

theorem homeWrites_cons_flatten (f : FileImage) (chunk : List PagedDwbEntry) (frames : List (List PagedDwbEntry)) :
    f.writeAll (homeWrites (chunk :: frames).flatten) =
      (f.writeAll (homeWrites chunk)).writeAll (homeWrites frames.flatten) := by
  rw [flatten_cons, homeWrites, map_append, writeAll_append]
  rfl

theorem stagedWrites_cons (chunk : List PagedDwbEntry) (frames : List (List PagedDwbEntry)) (ops : List DiskOp) :
    stagedWrites crc32 (chunk :: frames) ++ ops = barrier [⟨dwbZoneOffset, encodePagedDwbFrame crc32 chunk⟩] ++
        (barrier (homeWrites chunk) ++ (stagedWrites crc32 frames ++ ops)) := by
  rw [stagedWrites, flatMap_cons, append_assoc, append_assoc]
  rfl

section

variable (settled : Restores crc32 f f)
include settled

theorem Restores.chunk_written {chunk : List PagedDwbEntry} (few : chunk.length ≤ 63)
    (home : ∀ entry ∈ chunk, entry.Home) {g : FileImage}
    (written : g = (f.write dwbZoneOffset (encodePagedDwbFrame crc32 chunk)).writeAll (homeWrites chunk)) :
    Restores crc32 g g ∧ SameHomes g (f.writeAll (homeWrites chunk)) := by
  obtain ⟨restores, same⟩ := (settled.frame_written few home).homes_written (staged_write_frame few)
  subst written
  exact ⟨restores.congr same.symm, same⟩

theorem Restores.crash_writing {frames : List (List PagedDwbEntry)} (stageable : Stageable frames)
    (crashed : ((synced f).run ((stagedWrites crc32 frames ++ clearDwbZone crc32).take n)).Crashed left)
    (rejected : FrameRejected crc32 ((synced f).run ((stagedWrites crc32 frames ++ clearDwbZone crc32).take n)) left) :
    ∃ k, Restores crc32 left (f.writeAll (homeWrites (frames.take k).flatten)) := by
  induction frames generalizing f n with
  | nil => exact ⟨0, settled.crash_clearing (.refl f) crashed rejected⟩
  | cons chunk frames ih =>
    obtain ⟨few, home⟩ := stageable chunk (mem_cons_self ..)
    have applied : f.writeAll (homeWrites ((chunk :: frames).take 1).flatten) = f.writeAll (homeWrites chunk) := by simp
    rw [stagedWrites_cons] at crashed rejected
    -- The crash comes before the frame is durable, before its homes are, or later.
    rcases run_take_barrier f [⟨dwbZoneOffset, encodePagedDwbFrame crc32 chunk⟩]
      (barrier (homeWrites chunk) ++ (stagedWrites crc32 frames ++ clearDwbZone crc32)) n with before | ⟨m, behind⟩
    · rw [before] at crashed rejected
      rcases settled.crash_staging few home crashed rejected with old | new
      · exact ⟨0, old⟩
      · exact ⟨1, applied ▸ new⟩
    rw [behind, writeAll_cons, writeAll_nil] at crashed rejected
    rcases run_take_barrier (f.write dwbZoneOffset (encodePagedDwbFrame crc32 chunk)) (homeWrites chunk)
      (stagedWrites crc32 frames ++ clearDwbZone crc32) m with before | ⟨m, behind⟩
    · rw [before] at crashed
      exact ⟨1, applied ▸ (settled.frame_written few home).crash_homes (staged_write_frame few) crashed⟩
    · rw [behind] at crashed rejected
      obtain ⟨settled, same⟩ := settled.chunk_written few home rfl
      obtain ⟨k, restores⟩ := ih settled (fun chunk member => stageable chunk (mem_cons_of_mem _ member)) crashed rejected
      refine ⟨k + 1, restores.congr ?_⟩
      rw [take_succ_cons, homeWrites_cons_flatten]
      exact same.writeAll _

theorem Restores.batch_written {frames : List (List PagedDwbEntry)} (stageable : Stageable frames) :
    Ready crc32 ((synced f).run (stagedWrites crc32 frames ++ clearDwbZone crc32)).view ∧
      SameHomes ((synced f).run (stagedWrites crc32 frames ++ clearDwbZone crc32)).view
        (f.writeAll (homeWrites frames.flatten)) := by
  induction frames generalizing f with
  | nil =>
    have program : (synced f).run (stagedWrites crc32 [] ++ clearDwbZone crc32) =
        synced (f.writeAll (clearWrites crc32)) := run_barrier f _
    rw [program, view_synced]
    exact ⟨ready_clear crc32 f, sameHomes_clear crc32 settled.sized⟩
  | cons chunk frames ih =>
    obtain ⟨few, home⟩ := stageable chunk (mem_cons_self ..)
    rw [stagedWrites_cons, run_append, run_barrier, run_append, run_barrier, homeWrites_cons_flatten,
      writeAll_cons, writeAll_nil]
    obtain ⟨settled, same⟩ := settled.chunk_written few home rfl
    obtain ⟨ready, written⟩ := ih settled fun chunk member => stageable chunk (mem_cons_of_mem _ member)
    exact ⟨ready, written.trans (same.writeAll _)⟩

end

end

def homePage (file : FileImage) (pageId : UInt32) : Bytes := file.read (pageId.toNat * pageSize) pageSize

theorem homePage_homeWrites (f : FileImage) (entries : List PagedDwbEntry) (pageId : UInt32) :
    homePage (f.writeAll (homeWrites entries)) pageId = homePage f pageId ∨ ∃ entry ∈ entries, entry.pageId = pageId ∧
        homePage (f.writeAll (homeWrites entries)) pageId = entry.page.1 := by
  induction entries generalizing f with
  | nil => exact .inl rfl
  | cons entry entries ih =>
    rcases ih (f.write (entry.pageId.toNat * pageSize) entry.page.1) with kept | ⟨other, member, same, written⟩
    · by_cases same : entry.pageId = pageId
      · refine .inr ⟨entry, mem_cons_self .., same, kept.trans ?_⟩
        rw [← same]
        exact read_write f _ entry.page.2
      · refine .inl (kept.trans (read_write_of_disjoint f ?_))
        have different : entry.pageId.toNat ≠ pageId.toNat := fun equal => same (UInt32.toNat_inj.mp equal)
        rw [entry.page.2]
        simp only [pageSize]
        omega
    · exact .inr ⟨other, mem_cons_of_mem _ member, same, written⟩

namespace DwbFile

variable {crc32 : Bytes → UInt32} {s t : DwbFile}

def TornRejected (crc32 : Bytes → UInt32) (s : DwbFile) : DwbEvent → Prop
  | .crashWriting pages point left => FrameRejected crc32 (s.writing crc32 pages point) left
  | .crashRecovering point left => FrameRejected crc32 (s.recovering crc32 point) left
  | _ => True

structure Inv (crc32 : Bytes → UInt32) (s : DwbFile) : Prop where
  up : s.crashed = false → Ready crc32 s.file
  down : ∃ target, Restores crc32 s.file target

theorem Ready.inv (ready : Ready crc32 s.file) : Inv crc32 s := ⟨fun _ => ready, _, ready.restores (.refl _)⟩

theorem Inv.created (reserved : FileImage) : Inv crc32 (created crc32 reserved) := by
  refine Ready.inv ?_
  rw [DwbFile.created, clearDwbZone, ← barrier, run_barrier, view_synced]
  exact ready_clear crc32 reserved

section

variable (ready : Ready crc32 s.file) {pages : List PagedDwbEntry} (home : ∀ entry ∈ pages, entry.Home)
include ready pages home

theorem crash_restores {point : Nat} {left : FileImage} (torn : (s.writing crc32 pages point).Crashed left)
    (rejected : FrameRejected crc32 (s.writing crc32 pages point) left) :
    ∃ k, Restores crc32 left (s.file.writeAll (homeWrites ((chunks 63 pages).take k).flatten)) := by
  have settled := ready.restores (.refl s.file)
  rw [writing] at torn rejected
  by_cases none : pages = []
  · subst none
    rw [writePages_nil, take_nil] at torn
    rw [torn.of_synced]
    exact ⟨0, settled⟩
  · rw [writePages_eq none] at torn rejected
    exact settled.crash_writing (stageable_chunks home) torn rejected

theorem batch_ready : Ready crc32 ((synced s.file).run (Pager.writePages crc32 pages true)).view ∧
      SameHomes ((synced s.file).run (Pager.writePages crc32 pages true)).view
        (s.file.writeAll (homeWrites pages)) := by
  by_cases none : pages = []
  · subst none
    rw [writePages_nil]
    exact ⟨ready, .refl _⟩
  · have written := (ready.restores (.refl s.file)).batch_written (stageable_chunks home)
    rw [flatten_chunks] at written
    rw [writePages_eq none]
    exact written

end

theorem superblock_ready (ready : Ready crc32 s.file) {slot : SlotWrite}
    (size : slot.bytes.length = pagedSuperblockSlotSize) :
    Ready crc32 (s.file.write (pagedSuperblockSlotOffset slot.copyIndex) slot.bytes) := by
  have before : pagedSuperblockSlotOffset slot.copyIndex + slot.bytes.length ≤ dwbZoneOffset := by
    have copy := Nat.mod_lt slot.copyIndex (show 0 < pagedSuperblockSlotCount by decide)
    rw [size]
    simp only [pagedSuperblockSlotOffset, pagedSuperblockSlotCount, pagedSuperblockSlotSize, dwbZoneOffset,
      dwbZoneStartPage, pageSize] at copy ⊢
    omega
  have grown : s.file.size ≤ (s.file.writeAll [⟨pagedSuperblockSlotOffset slot.copyIndex, slot.bytes⟩]).size :=
    le_size_writeAll
  exact ⟨le_trans ready.sized grown, (staged_congr (read_write_of_disjoint _ (.inr before))).trans ready.idle⟩

theorem Inv.step {e : DwbEvent} (inv : Inv crc32 s) (rejected : s.TornRejected crc32 e)
    (taken : Step crc32 s e t) : Inv crc32 t := by
  cases taken with
  | writePages up home => exact Ready.inv (batch_ready (inv.up up) home).1
  | writeSuperblock up size => exact Ready.inv (superblock_ready (inv.up up) size)
  | crashWriting up home torn =>
    obtain ⟨k, restores⟩ := crash_restores (inv.up up) home torn rejected
    exact ⟨fun up => (by cases up), _, restores⟩
  | crashRecovering torn =>
    obtain ⟨target, restores⟩ := inv.down
    exact ⟨fun up => (by cases up), target, restores.crash_recovering torn rejected⟩
  | recover =>
    obtain ⟨target, restores⟩ := inv.down
    exact Ready.inv restores.recovered.1

def Retries (events : List DwbEvent) : Prop := ∀ e ∈ events, e = .recover ∨ ∃ point left, e = .crashRecovering point left

theorem Restores.retried {target : FileImage} {events : List DwbEvent} (restores : Restores crc32 s.file target)
    (retries : Retries events) (run : Run (Guarded (Step crc32) (TornRejected crc32)) s events t) :
    Restores crc32 t.file target := by
  induction run with
  | done => exact restores
  | more run taken ih =>
    have restores := ih fun e member => retries e (mem_append_left _ member)
    obtain ⟨rejected, taken⟩ := taken
    rcases retries _ (mem_append_right _ (mem_singleton_self _)) with rfl | ⟨point, left, rfl⟩
    · cases taken
      obtain ⟨ready, same⟩ := restores.recovered
      exact ready.restores same
    · cases taken with
      | crashRecovering torn => exact restores.crash_recovering torn rejected

/-- However a batch and the recoveries after it are interrupted, the recovery that runs to its end leaves every
    home page as it was before the batch or as the batch has it, and always the same way. -/
theorem homes_never_torn {reserved left : FileImage} {events retried : List DwbEvent} {u : DwbFile}
    (run : Run (Guarded (Step crc32) (TornRejected crc32)) (created crc32 reserved) events s)
    {pages : List PagedDwbEntry} {point : Nat}
    (crash : Guarded (Step crc32) (TornRejected crc32) s (.crashWriting pages point left) t)
    (again : Run (Guarded (Step crc32) (TornRejected crc32)) t retried u) (retries : Retries retried) :
    (∀ pageId : UInt32, pageId.toNat < dwbZoneStartPage ∨ firstAllocatablePage ≤ pageId.toNat →
      homePage (recovered crc32 u.file) pageId = homePage s.file pageId ∨
        ∃ entry ∈ pages, entry.pageId = pageId ∧ homePage (recovered crc32 u.file) pageId = entry.page.1) ∧
      SameHomes (recovered crc32 u.file) (recovered crc32 t.file) ∧
      SameHomes (recovered crc32 (recovered crc32 u.file)) (recovered crc32 u.file) := by
  have preserved (before : DwbFile) (e : DwbEvent) (after : DwbFile) (inv : Inv crc32 before)
      (taken : Guarded (Step crc32) (TornRejected crc32) before e after) : Inv crc32 after :=
    inv.step taken.1 taken.2
  have inv : Inv crc32 s := run.invariant preserved (.created reserved)
  obtain ⟨rejected, taken⟩ := crash
  cases taken with
  | crashWriting up home torn =>
    obtain ⟨k, restores⟩ := crash_restores (inv.up up) home torn rejected
    obtain ⟨-, first⟩ := restores.recovered
    obtain ⟨ready, last⟩ := (Restores.retried restores retries again).recovered
    refine ⟨fun pageId outside => ?_, last.trans first.symm, (ready.restores (.refl _)).recovered.2⟩
    have position : pageId.toNat * pageSize + pageSize ≤ dwbZoneOffset ∨ dwbZoneEnd ≤ pageId.toNat * pageSize := by
      simp only [firstAllocatablePage, dwbZoneEnd, dwbZoneOffset, dwbZoneBytes, dwbZoneStartPage, dwbZonePages,
        pageSize] at outside ⊢
      omega
    have applied : homePage (recovered crc32 u.file) pageId = homePage _ pageId := last.read position
    rw [applied]
    refine (homePage_homeWrites s.file _ pageId).imp_right fun replaced => ?_
    obtain ⟨entry, listed, same, written⟩ := replaced
    obtain ⟨chunk, member, listed⟩ := mem_flatten.mp listed
    have batch : entry ∈ pages := by
      rw [← flatten_chunks 63 pages]
      exact mem_flatten_of_mem (mem_of_mem_take member) listed
    exact ⟨entry, batch, same, written⟩

/-- A crash while the only page of a batch is half written, and another one before the recovery has written anything. -/
theorem homes_never_torn_half_written :
    let s := created crc32Ieee .empty
    let page : PageImage := ⟨List.replicate pageSize 1, length_replicate⟩
    ∃ left : FileImage, (s.writing crc32Ieee [⟨67, page⟩] 3).Crashed left ∧
      left.read (67 * pageSize) 8192 = List.replicate 8192 1 ∧
      left.read (67 * pageSize + 8192) 8192 = s.file.read (67 * pageSize + 8192) 8192 ∧
      ∀ pageId : UInt32, pageId.toNat < dwbZoneStartPage ∨ firstAllocatablePage ≤ pageId.toNat →
        homePage (recovered crc32Ieee left) pageId = homePage s.file pageId ∨
          ∃ entry ∈ [PagedDwbEntry.mk 67 page], entry.pageId = pageId ∧
            homePage (recovered crc32Ieee left) pageId = entry.page.1 := by
  intro s page
  let staged := s.file.write dwbZoneOffset (encodePagedDwbFrame crc32Ieee [⟨67, page⟩])
  let home := writePage 67 page
  let left := staged.write home.offset (home.bytes.take 8192)
  have chunk : chunks 63 [PagedDwbEntry.mk 67 page] = [[⟨67, page⟩]] := by simp [chunks]
  have disk : s.writing crc32Ieee [⟨67, page⟩] 3 = ⟨staged, [home]⟩ := by
    rw [writing, writePages_eq (cons_ne_nil _ _), chunk]
    rfl
  have homes : ∀ entry ∈ [PagedDwbEntry.mk 67 page], entry.Home := by
    intro entry member
    rw [mem_singleton.mp member]
    exact .inr (by decide)
  have half : home.bytes.take 8192 = List.replicate 8192 1 := take_replicate
  have width : (home.bytes.take 8192).length = 8192 := by rw [half, length_replicate]
  have first : left.read (67 * pageSize) 8192 = List.replicate 8192 1 := (read_write staged _ width).trans half
  have second : left.read (67 * pageSize + 8192) 8192 = s.file.read (67 * pageSize + 8192) 8192 := by
    rw [read_write_of_disjoint staged (.inr (by rw [width]; rfl)), read_write_of_disjoint s.file (.inr ?_)]
    rw [length_encodePagedDwbFrame]
    decide
  have torn : (s.writing crc32Ieee [⟨67, page⟩] 3).Crashed left := by
    rw [disk]
    exact crashed_take staged home 8192
  have rejected : FrameRejected crc32Ieee (s.writing crc32Ieee [⟨67, page⟩] 3) left := by
    intro entries found
    rw [disk]
    refine .inl (Eq.trans (staged_congr ?_).symm found)
    exact read_write_of_disjoint staged (.inl (by decide))
  have again : Run (Guarded (Step crc32Ieee) (TornRejected crc32Ieee)) ⟨left, true⟩
      [.crashRecovering 0 left] ⟨left, true⟩ :=
    .single ⟨fun entries found => .inl found, .crashRecovering (crashed_synced left)⟩
  have retries : Retries [.crashRecovering 0 left] := fun e member => .inr ⟨0, left, mem_singleton.mp member⟩
  exact ⟨left, torn, first, second, (homes_never_torn (.done s) ⟨rejected, .crashWriting rfl homes torn⟩ again retries).1⟩

end DwbFile

end RedDB.Pager
