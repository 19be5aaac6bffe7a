import RedDB.Replication.SpoolIndex

namespace RedDB.Replication

open List Library LogicalWalSpoolState

variable {ρ : Type} {ext : External ρ}

def External.undecoded : External Unit where
  crc32 := Wal.crc32Ieee
  decodeChange _ := none
  encodeChange _ := []

def SpoolAppend.entry (a : SpoolAppend) : LogicalWalEntry where
  term := a.term
  ownershipEpoch := epochOf (a.ownershipEpoch.getD 0)
  lsn := a.lsn
  timestampMs := a.timestampMs
  data := a.data
  version := logicalWalSpoolVersionV3

def delivered (ext : External ρ) (entry : LogicalWalEntry) : UInt64 × Bytes :=
  (entry.lsn, logicalWalDataWithFramingTerm ext entry)

theorem getD_epochOf (epoch : Option UInt64) : (epochOf (epoch.getD 0)).getD 0 = epoch.getD 0 := by
  unfold epochOf
  split_ifs with zero
  · exact zero.symm
  · rfl

theorem stored_entry {a : SpoolAppend} (believable : a.data.length ≤ maxPlausiblePayload) : Stored a.entry where
  version := rfl
  epoch := by
    simp only [SpoolAppend.entry, epochOf]
    split_ifs with zero
    · exact fun none => by cases none
    · exact fun same => zero (Option.some.inj same)
  believable := believable

theorem frame_eq (a : SpoolAppend) : a.frame ext = encodeEntry ext.crc32 a.entry := by
  simp only [SpoolAppend.frame, encodeEntry, encodeLogicalWalV3, computeLogicalV3Crc, SpoolAppend.entry, getD_epochOf]

theorem frame_ok {a : SpoolAppend} (believable : a.data.length ≤ maxPlausiblePayload) :
    a.frame ext = .ok (frameOf ext.crc32 a.entry) := (frame_eq a).trans (encodeEntry_ok (stored_entry believable))

theorem delivered_filter (entries : List LogicalWalEntry) (keep : UInt64 → Bool) :
    (entries.filter fun entry => keep entry.lsn).map (delivered ext) =
      (entries.map (delivered ext)).filter fun record => keep record.1 := by
  rw [filter_map]
  rfl

section

variable {entry : LogicalWalEntry} {entries : List LogicalWalEntry}

def retag (ext : External ρ) (now : UInt64) (entry : LogicalWalEntry) : LogicalWalEntry :=
  { entry with
    term := logicalWalEntryTerm ext entry
    timestampMs := if entry.timestampMs > 0 then entry.timestampMs else now }

theorem logicalWalEntryTerm_retag (now : UInt64) :
    logicalWalEntryTerm ext (retag ext now entry) = logicalWalEntryTerm ext entry := by
  simp only [logicalWalEntryTerm, retag]
  split_ifs <;> rfl

theorem delivered_retag (now : UInt64) : delivered ext (retag ext now entry) = delivered ext entry := by
  simp only [delivered, logicalWalDataWithFramingTerm, logicalWalEntryTerm_retag]
  rfl

theorem stored_retag (stored : Stored entry) (now : UInt64) : Stored (retag ext now entry) :=
  ⟨stored.version, stored.epoch, stored.believable⟩

theorem retain_eq (uptoLsn now : UInt64) :
    retain ext entries uptoLsn now = (entries.filter fun entry => entry.lsn > uptoLsn).map (retag ext now) := rfl

theorem stored_retain (stored : ∀ entry ∈ entries, Stored entry) (uptoLsn now : UInt64) :
    ∀ entry ∈ retain ext entries uptoLsn now, Stored entry := by
  intro entry member
  obtain ⟨source, kept, rfl⟩ := mem_map.mp member
  exact stored_retag (stored source (mem_of_mem_filter kept)) now

theorem increasing_retain (increasing : Increasing entries) (uptoLsn now : UInt64) :
    Increasing (retain ext entries uptoLsn now) :=
  pairwise_map.mpr (List.Pairwise.filter _ increasing)

theorem delivered_retain (uptoLsn now : UInt64) : (retain ext entries uptoLsn now).map (delivered ext) =
      (entries.map (delivered ext)).filter fun record => record.1 > uptoLsn := by
  have same : delivered ext ∘ retag ext now = delivered ext := funext fun _ => delivered_retag now
  rw [retain_eq, map_map, same]
  exact delivered_filter entries fun lsn => lsn > uptoLsn

section

variable {crc32 : Bytes → UInt32} (stored : ∀ entry ∈ entries, Stored entry)
include crc32 stored

theorem mapM_encodeEntry : entries.mapM (encodeEntry crc32) = .ok (entries.map (frameOf crc32)) := by
  induction entries with
  | nil => rfl
  | cons entry entries ih =>
    rw [mapM_cons, encodeEntry_ok (stored entry (mem_cons_self ..)),
      ih fun e member => stored e (mem_cons_of_mem _ member)]
    rfl

theorem rewrite_ok : ∃ lsn, rewriteLogicalWalEntries crc32 entries = .ok (framesOf crc32 entries, lsn) := by
  rw [rewriteLogicalWalEntries, mapM_encodeEntry stored]
  exact ⟨_, rfl⟩

end

end

namespace SpoolStore

def Ascending (s : SpoolStore) : SpoolEvent → Prop
  | .append a | .crashAppend a _ => ∀ last ∈ s.lastLsn, last < a.lsn
  | _ => True

instance (s : SpoolStore) (e : SpoolEvent) : Decidable (s.Ascending e) :=
  match e with
  | .append a | .crashAppend a _ => Option.decidableForallMem (p := fun last => last < a.lsn) s.lastLsn
  | .reopen | .prune _ _ | .crash | .crashPrune _ _ _ => isTrue trivial

/-- Readers accept the payload, and what a crash leaves of a frame is nothing or reaches behind the magic without being
    the whole frame. -/
def Repairable (_ : SpoolStore) : SpoolEvent → Prop
  | .append a => a.data.length ≤ maxPlausiblePayload
  | .crashAppend a cut => a.data.length ≤ maxPlausiblePayload ∧ (cut = 0 ∨ 4 ≤ cut ∧ cut < 45 + a.data.length)
  | _ => True

instance (s : SpoolStore) (e : SpoolEvent) : Decidable (s.Repairable e) :=
  match e with
  | .append a => inferInstanceAs (Decidable (a.data.length ≤ maxPlausiblePayload))
  | .crashAppend a cut => inferInstanceAs (Decidable
      (a.data.length ≤ maxPlausiblePayload ∧ (cut = 0 ∨ 4 ≤ cut ∧ cut < 45 + a.data.length)))
  | .reopen | .prune _ _ | .crash | .crashPrune _ _ _ => isTrue trivial

structure Holds (ext : External ρ) (s : SpoolStore) (entries : List LogicalWalEntry) (tail : Bytes) : Prop where
  file : s.file = framesOf ext.crc32 entries ++ tail
  stored : ∀ entry ∈ entries, Stored entry
  increasing : Increasing entries
  appended : entries.map (delivered ext) = s.appended.map fun a => delivered ext a.entry
  bounded : ∀ entry ∈ entries, ∃ last ∈ s.lastLsn, entry.lsn ≤ last
  opened : ∀ state ∈ s.spool, tail = [] ∧
    Built ext.crc32 entries ⟨state.seekIndex, state.writeOffset, state.recordCount⟩
  broken : tail = [] ∨ readFrame ext.crc32 tail = .corrupt

def Inv (ext : External ρ) (s : SpoolStore) : Prop := ∃ entries tail, Holds ext s entries tail

theorem inv_init : Inv ext .init :=
  ⟨[], [], rfl, forall_mem_nil _, .nil, rfl, forall_mem_nil _, fun _ none => (by cases none), .inl rfl⟩

section

variable {s t : SpoolStore} {entries : List LogicalWalEntry} {tail : Bytes}

theorem Holds.reopen_step (holds : Holds ext s entries tail) (taken : s.step ext .reopen = some t) :
    Holds ext t entries [] := by
  simp only [step] at taken
  split at taken
  · cases taken
  · have repaired : readAndRepairLogicalWalEntries ext.crc32 s.file = (entries, framesOf ext.crc32 entries) := by
      rw [holds.file]
      exact readAndRepair_frames holds.stored holds.broken
    rw [openSpool, repaired] at taken
    cases taken
    refine { holds with file := (append_nil _).symm, opened := fun state same => ⟨rfl, ?_⟩, broken := .inl rfl }
    cases same
    exact built_frames holds.stored holds.increasing

theorem Holds.crash_step (holds : Holds ext s entries tail) (taken : s.step ext .crash = some t) :
    Holds ext t entries tail := by
  cases taken
  exact { holds with opened := fun _ none => (by cases none) }

variable {state : LogicalWalSpoolState}

theorem Holds.whole (holds : Holds ext s entries tail) (opened : s.spool = some state) :
    s.file = framesOf ext.crc32 entries ∧
      Built ext.crc32 entries ⟨state.seekIndex, state.writeOffset, state.recordCount⟩ := by
  obtain ⟨empty, built⟩ := holds.opened state opened
  have file := holds.file
  rw [empty, append_nil] at file
  exact ⟨file, built⟩

variable {a : SpoolAppend}

theorem Holds.increasing_append (holds : Holds ext s entries tail)
    (ascending : ∀ last ∈ s.lastLsn, last < a.lsn) : Increasing (entries ++ [a.entry]) := by
  refine pairwise_append.mpr ⟨holds.increasing, pairwise_singleton _ _, fun entry member last same => ?_⟩
  obtain ⟨bound, known, below⟩ := holds.bounded entry member
  rw [mem_singleton.mp same]
  exact UInt64.lt_of_le_of_lt below (ascending bound known)

theorem Built.append {entry : LogicalWalEntry}
    (built : Built ext.crc32 entries ⟨state.seekIndex, state.writeOffset, state.recordCount⟩)
    (increasing : Increasing (entries ++ [entry])) {next : LogicalWalSpoolState}
    (noted : next = afterAppend state entry.lsn (frameOf ext.crc32 entry)) :
    Built ext.crc32 (entries ++ [entry]) ⟨next.seekIndex, next.writeOffset, next.recordCount⟩ := by
  have offset : state.writeOffset = (framesOf ext.crc32 entries).length := built.writeOffset
  have count : state.recordCount = entries.length := built.ordinal
  subst noted
  refine ⟨?_, ?_, ?_⟩
  · simp only [afterAppend, noteRecord]
    rw [offset]
    exact built.indexed.push increasing _
  · simp only [afterAppend, noteRecord]
    rw [offset, framesOf_append, length_append]
    simp [framesOf]
  · simp only [afterAppend, noteRecord]
    rw [count, length_append, length_singleton]

section

variable (holds : Holds ext s entries tail)
include holds

theorem Holds.append_step
    (ascending : ∀ last ∈ s.lastLsn, last < a.lsn) (believable : a.data.length ≤ maxPlausiblePayload)
    (taken : s.step ext (.append a) = some t) : Holds ext t (entries ++ [a.entry]) [] := by
  simp only [step] at taken
  split at taken
  · cases taken
  · rename_i state opened
    obtain ⟨file, built⟩ := holds.whole opened
    rw [frame_ok believable] at taken
    cases taken
    refine ⟨?_, ?_, holds.increasing_append ascending, ?_, ?_, fun next same => ⟨rfl, ?_⟩, .inl rfl⟩
    · simp [file, framesOf]
    · exact forall_mem_append.mpr ⟨holds.stored, forall_mem_singleton.mpr (stored_entry believable)⟩
    · simp [holds.appended]
    · refine forall_mem_append.mpr ⟨fun entry member => ?_, forall_mem_singleton.mpr ⟨a.lsn, rfl, UInt64.le_refl _⟩⟩
      obtain ⟨last, known, below⟩ := holds.bounded entry member
      exact ⟨a.lsn, rfl, UInt64.le_of_lt (UInt64.lt_of_le_of_lt below (ascending last known))⟩
    · cases same
      exact Built.append built (holds.increasing_append ascending) rfl

theorem Holds.crashAppend_step {cut : Nat}
    (believable : a.data.length ≤ maxPlausiblePayload) (marked : cut = 0 ∨ 4 ≤ cut ∧ cut < 45 + a.data.length)
    (taken : s.step ext (.crashAppend a cut) = some t) :
    Holds ext t entries ((frameOf ext.crc32 a.entry).take cut) := by
  simp only [step, frame_ok believable] at taken
  split at taken
  · rename_i state frame opened encoded
    obtain ⟨file, -⟩ := holds.whole opened
    cases encoded
    cases taken
    refine { holds with file := by rw [file], opened := fun _ none => (by cases none), broken := ?_ }
    rcases marked with rfl | ⟨behind, inside⟩
    · exact .inl rfl
    · refine .inr (readFrame_cut (stored_entry believable) behind ?_)
      rw [length_frameOf]
      exact inside
  · cases taken

theorem Holds.pruneFiles_eq (opened : s.spool = some state) (uptoLsn now : UInt64) :
    ∃ lsn, pruneFiles ext s.file uptoLsn now =
      (s.file, .ok (framesOf ext.crc32 (retain ext entries uptoLsn now), lsn)) := by
  obtain ⟨file, -⟩ := holds.whole opened
  have repaired : readAndRepairLogicalWalEntries ext.crc32 s.file = (entries, s.file) := by
    have whole := readAndRepair_frames holds.stored (.inl rfl : ([] : Bytes) = [] ∨ readFrame ext.crc32 [] = .corrupt)
    rw [append_nil, ← file] at whole
    exact whole
  have kept : ∀ entry ∈ retain ext entries uptoLsn now, Stored entry := stored_retain holds.stored uptoLsn now
  obtain ⟨lsn, rewritten⟩ : ∃ lsn, rewriteLogicalWalEntries ext.crc32 (retain ext entries uptoLsn now) = .ok
      (framesOf ext.crc32 (retain ext entries uptoLsn now), lsn) := rewrite_ok kept
  refine ⟨lsn, ?_⟩
  rw [pruneFiles, repaired]
  simp only [rewritten]

theorem Holds.retained (uptoLsn now : UInt64) {file : Bytes}
    {spool : Option LogicalWalSpoolState} (written : file = framesOf ext.crc32 (retain ext entries uptoLsn now))
    (built : ∀ state ∈ spool, Built ext.crc32 (retain ext entries uptoLsn now)
      ⟨state.seekIndex, state.writeOffset, state.recordCount⟩) :
    Holds ext { s with file, spool, appended := s.pruned uptoLsn } (retain ext entries uptoLsn now) [] := by
  refine ⟨by rw [written, append_nil], stored_retain holds.stored uptoLsn now,
    increasing_retain holds.increasing uptoLsn now, ?_, fun entry member => ?_, fun state same => ⟨rfl, built state same⟩,
    .inl rfl⟩
  · rw [delivered_retain, holds.appended, filter_map]
    rfl
  · obtain ⟨source, kept, rfl⟩ := mem_map.mp member
    exact holds.bounded source (mem_of_mem_filter kept)

variable {uptoLsn now : UInt64}

theorem Holds.prune_step
    (taken : s.step ext (.prune uptoLsn now) = some t) : Holds ext t (retain ext entries uptoLsn now) [] := by
  simp only [step] at taken
  split at taken
  · cases taken
  · rename_i state opened
    obtain ⟨lsn, files⟩ := holds.pruneFiles_eq opened uptoLsn now
    rw [files] at taken
    cases taken
    refine holds.retained uptoLsn now rfl fun next same => ?_
    cases same
    exact built_frames (stored_retain holds.stored uptoLsn now) (increasing_retain holds.increasing uptoLsn now)

theorem Holds.crashPrune_step {renamed : Bool}
    (taken : s.step ext (.crashPrune uptoLsn now renamed) = some t) : Inv ext t := by
  simp only [step] at taken
  split at taken
  · cases taken
  · rename_i state opened
    obtain ⟨lsn, files⟩ := holds.pruneFiles_eq opened uptoLsn now
    rw [files] at taken
    cases renamed with
    | true =>
      cases taken
      exact ⟨_, _, holds.retained uptoLsn now rfl fun _ none => (by cases none)⟩
    | false =>
      cases taken
      exact ⟨entries, tail, { holds with opened := fun _ none => (by cases none) }⟩

end

theorem Inv.step {e : SpoolEvent} (inv : Inv ext s) (ascending : s.Ascending e) (repairable : s.Repairable e)
    (taken : s.step ext e = some t) : Inv ext t := by
  obtain ⟨entries, tail, holds⟩ := inv
  cases e with
  | reopen => exact ⟨_, _, holds.reopen_step taken⟩
  | append a => exact ⟨_, _, holds.append_step ascending repairable taken⟩
  | prune => exact ⟨_, _, holds.prune_step taken⟩
  | crash => exact ⟨_, _, holds.crash_step taken⟩
  | crashAppend => exact ⟨_, _, holds.crashAppend_step repairable.1 repairable.2 taken⟩
  | crashPrune => exact holds.crashPrune_step taken

end

theorem Holds.readSince {s : SpoolStore} {entries : List LogicalWalEntry} {tail : Bytes} (holds : Holds ext s entries tail)
    {state : LogicalWalSpoolState} (opened : s.spool = some state) (sinceLsn : UInt64) (maxCount : Nat) :
    Replication.readSince ext s.file state sinceLsn maxCount =
      ((s.appended.filter fun a => a.lsn > sinceLsn).take maxCount).map fun a => delivered ext a.entry := by
  obtain ⟨file, built⟩ := holds.whole opened
  obtain ⟨before, after, split, floor, below⟩ := built.indexed.seekFloor holds.increasing sinceLsn
  have none : before.filter (fun entry => entry.lsn > sinceLsn) = [] := by
    refine filter_eq_nil_iff.mpr fun entry member above => ?_
    exact UInt64.not_lt.mpr (below entry member) (of_decide_eq_true above)
  have kept : after.filter (fun entry => entry.lsn > sinceLsn) = entries.filter fun entry => entry.lsn > sinceLsn := by
    rw [split, filter_append, none, nil_append]
  have records : (entries.filter fun entry => entry.lsn > sinceLsn).map (delivered ext) =
      (s.appended.filter fun a => a.lsn > sinceLsn).map fun a => delivered ext a.entry := by
    rw [delivered_filter entries fun lsn => lsn > sinceLsn, holds.appended, filter_map]
    rfl
  have scanned : readLogicalWalEntriesFrom ext.crc32 s.file (state.seekFloorOffset sinceLsn) = after := by
    rw [file, floor]
    exact readFrom_frames holds.stored split
  have read : Replication.readSince ext s.file state sinceLsn maxCount =
      ((after.filter fun entry => entry.lsn > sinceLsn).take maxCount).map (delivered ext) := by
    rw [Replication.readSince, scanned]
    rfl
  rw [read, kept, map_take, records, map_take]

/-- A replica is sent exactly the first records above its position that were appended and not pruned. -/
theorem read_since_exact {events : List SpoolEvent} {s : SpoolStore}
    (run : Run (Guarded (Steps (step ext)) fun s e => s.Ascending e ∧ s.Repairable e) .init events s)
    {state : LogicalWalSpoolState} (opened : s.spool = some state) (sinceLsn : UInt64) (maxCount : Nat) :
    readSince ext s.file state sinceLsn maxCount =
      ((s.appended.filter fun a => a.lsn > sinceLsn).take maxCount).map fun a => delivered ext a.entry := by
  have preserved (before : SpoolStore) (e : SpoolEvent) (after : SpoolStore) (inv : Inv ext before)
      (taken : Guarded (Steps (step ext)) (fun s e => s.Ascending e ∧ s.Repairable e) before e after) : Inv ext after :=
    inv.step taken.1.1 taken.1.2 taken.2
  obtain ⟨entries, tail, holds⟩ := run.invariant preserved inv_init
  exact holds.readSince opened sinceLsn maxCount

/-- A crash cuts the frame of a second record behind its magic; the repair drops it and the next record follows the
    first one. -/
theorem read_since_exact_repaired :
    ∃ (s : SpoolStore) (state : LogicalWalSpoolState),
      Run (Guarded (Steps (step .undecoded)) fun s e => s.Ascending e ∧ s.Repairable e) .init
        [.reopen, .append ⟨1, none, 1, 10, [7]⟩, .crashAppend ⟨1, none, 2, 11, [8]⟩ 9, .reopen,
          .append ⟨1, none, 3, 12, [9]⟩] s ∧
      s.spool = some state ∧ s.appended.length = 2 ∧
      readSince .undecoded s.file state 0 10 =
        ((s.appended.filter fun a => a.lsn > 0).take 10).map fun a => delivered .undecoded a.entry := by
  obtain ⟨s, run, observed⟩ := execute_reaches (step .undecoded) (fun s e => s.Ascending e ∧ s.Repairable e) .init
    [.reopen, .append ⟨1, none, 1, 10, [7]⟩, .crashAppend ⟨1, none, 2, 11, [8]⟩ 9, .reopen,
      .append ⟨1, none, 3, 12, [9]⟩]
    (fun s => s.spool.isSome && decide (s.appended.length = 2)) (by decide +kernel)
  rw [Bool.and_eq_true, Option.isSome_iff_exists] at observed
  obtain ⟨⟨state, opened⟩, two⟩ := observed
  exact ⟨s, state, run, opened, of_decide_eq_true two, read_since_exact run opened 0 10⟩

/-- A crash leaves one byte of a frame, which the repair does not see. The record that is appended behind it is never
    read. -/
theorem append_behind_cut_magic_lost : ∃ (s : SpoolStore), Run (Guarded (Steps (step .undecoded)) Ascending) .init
        [.reopen, .crashAppend ⟨1, none, 1, 10, [7]⟩ 1, .reopen, .append ⟨1, none, 2, 11, [8]⟩] s ∧
      ∃ state, s.spool = some state ∧ readSince .undecoded s.file state 0 10 ≠
        ((s.appended.filter fun a => a.lsn > 0).take 10).map fun a => delivered .undecoded a.entry := by
  obtain ⟨s, run, observed⟩ := execute_reaches (step .undecoded) Ascending .init
    [.reopen, .crashAppend ⟨1, none, 1, 10, [7]⟩ 1, .reopen, .append ⟨1, none, 2, 11, [8]⟩]
    (fun s => s.spool.any fun state => decide (readSince .undecoded s.file state 0 10 ≠
      ((s.appended.filter fun a => a.lsn > 0).take 10).map fun a => delivered .undecoded a.entry)) (by decide +kernel)
  cases opened : s.spool with
  | none => simp [opened] at observed
  | some state =>
    rw [opened] at observed
    exact ⟨s, run, state, opened, of_decide_eq_true observed⟩

end SpoolStore

end RedDB.Replication
