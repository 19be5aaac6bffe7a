import RedDB.Library.Program
import RedDB.Pager.OwnershipJournal

namespace RedDB.Pager

open List Library Nat

section

variable {crc32 : Bytes → UInt32} {bytes : Bytes} {record : PageOwnershipRecord}

namespace PageOwnershipRecord

def pageId (record : PageOwnershipRecord) : Nat := record.fields.2.2

def Valid (record : PageOwnershipRecord) : Prop :=
  record.epoch < 2 ^ 64 ∧ record.pageId < 2 ^ 32 ∧ record.epoch ≠ 0 ∧ match record with
    | .begin _ | .finish _ => True
    | .reserve _ pageId | .retire _ pageId | .detachFree _ pageId => pageId ≠ 0

@[simp] theorem length_body (record : PageOwnershipRecord) : record.body.length = 28 := by
  cases record <;> simp [body, fields, journalMagic]

@[simp] theorem length_frame (record : PageOwnershipRecord) : (record.frame crc32).length = recordSize := by
  simp [frame, recordSize]

theorem take_frame (record : PageOwnershipRecord) : (record.frame crc32).take 28 = record.body :=
  take_left' record.length_body

theorem slices_frame (crc32 : Bytes → UInt32) (record : PageOwnershipRecord) :
    slice (record.frame crc32) 0 4 = journalMagic ∧ slice (record.frame crc32) 4 1 = [journalVersion] ∧
      slice (record.frame crc32) 5 1 = [record.fields.1] ∧ slice (record.frame crc32) 6 2 = [0, 0] ∧
      slice (record.frame crc32) 8 8 = toLeBytes 8 record.epoch ∧
      slice (record.frame crc32) 16 4 = toLeBytes 4 record.pageId ∧
      slice (record.frame crc32) 20 8 = List.replicate 8 0 ∧
      slice (record.frame crc32) 28 4 = toLeBytes 4 (crc32 record.body).toNat := by
  have checksum : slice (record.frame crc32) 28 4 = toLeBytes 4 (crc32 record.body).toNat := by
    rw [slice, frame, drop_left' record.length_body]
    exact take_of_length_le (by simp)
  refine ⟨?_, ?_, ?_, ?_, ?_, ?_, ?_, checksum⟩ <;>
    simp [slice, frame, body, epoch, pageId, journalMagic, take_append, drop_append]

end PageOwnershipRecord

theorem drop_eq_slice (bytes : Bytes) (start length : Nat) :
    bytes.drop start = slice bytes start length ++ bytes.drop (start + length) := by
  rw [slice, ← drop_drop, take_append_drop]

theorem eq_slices (length : bytes.length = recordSize) :
    bytes = (slice bytes 0 4 ++ (slice bytes 4 1 ++ (slice bytes 5 1 ++ (slice bytes 6 2 ++ (slice bytes 8 8 ++
      (slice bytes 16 4 ++ slice bytes 20 8)))))) ++ slice bytes 28 4 := by
  have none_ : bytes.drop 32 = [] := drop_eq_nil_of_le (le_of_eq length)
  have whole : bytes = bytes.drop 0 := rfl
  nth_rewrite 1 [whole, drop_eq_slice bytes 0 4, drop_eq_slice bytes 4 1, drop_eq_slice bytes 5 1,
    drop_eq_slice bytes 6 2, drop_eq_slice bytes 8 8, drop_eq_slice bytes 16 4, drop_eq_slice bytes 20 8,
    drop_eq_slice bytes 28 4, none_]
  simp only [append_nil, append_assoc]

theorem length_slice {start length : Nat} (whole : bytes.length = recordSize) (inside : start + length ≤ recordSize) :
    (slice bytes start length).length = length := by
  rw [slice, length_take, length_drop]
  omega

theorem recordOf_ok {kind : UInt8} {epoch pageId : Nat} (large : epoch < 2 ^ 64) (small : pageId < 2 ^ 32)
    (real : epoch ≠ 0) :
    recordOf [kind] epoch pageId = .ok record ↔ record.fields = (kind, epoch, pageId) ∧ record.Valid := by
  constructor
  · intro named
    unfold recordOf at named
    split_ifs at named with first second third fourth fifth <;> cases named
    · obtain ⟨same, rfl⟩ := first
      cases same
      exact ⟨rfl, large, small, real, trivial⟩
    · obtain ⟨same, page⟩ := second
      cases same
      exact ⟨rfl, large, small, real, one_le_iff_ne_zero.mp page⟩
    · obtain ⟨same, page⟩ := third
      cases same
      exact ⟨rfl, large, small, real, one_le_iff_ne_zero.mp page⟩
    · obtain ⟨same, rfl⟩ := fourth
      cases same
      exact ⟨rfl, large, small, real, trivial⟩
    · obtain ⟨same, page⟩ := fifth
      cases same
      exact ⟨rfl, large, small, real, one_le_iff_ne_zero.mp page⟩
  · rintro ⟨named, -, -, -, page⟩
    cases record <;> cases named <;> simp_all [recordOf, one_le_iff_ne_zero]

theorem decodeRecord_ok : decodeRecord crc32 bytes = .ok record ↔ record.Valid ∧ bytes = record.frame crc32 := by
  constructor
  · intro decoded
    unfold decodeRecord at decoded
    split_ifs at decoded with length fixed checksum zero
    rw [not_not] at length checksum
    push Not at fixed
    obtain ⟨magic, version, reserved, zeros⟩ := fixed
    have epochLength : (slice bytes 8 8).length = 8 := length_slice length (by decide)
    have pageLength : (slice bytes 16 4).length = 4 := length_slice length (by decide)
    have checksumLength : (slice bytes 28 4).length = 4 := length_slice length (by decide)
    have kindLength : (slice bytes 5 1).length = 1 := length_slice length (by decide)
    have large := fromLeBytes_lt (slice bytes 8 8)
    have small := fromLeBytes_lt (slice bytes 16 4)
    rw [epochLength] at large
    rw [pageLength] at small
    obtain ⟨kind, named⟩ := length_eq_one_iff.mp kindLength
    rw [named] at decoded
    obtain ⟨fields, valid⟩ := (recordOf_ok large small zero).mp decoded
    have split := eq_slices length
    have covered : bytes.take 28 = record.body := by
      rw [split, take_left' (by simp [epochLength, pageLength, kindLength, magic, version,
        reserved, zeros, journalMagic]), magic, version, reserved, zeros, named, PageOwnershipRecord.body, fields]
      simp only [toLeBytes_fromLeBytes epochLength, toLeBytes_fromLeBytes pageLength]
    have remainder : bytes.drop 28 = slice bytes 28 4 := by
      refine (take_of_length_le ?_).symm
      rw [length_drop, length]
      decide
    have stamped : slice bytes 28 4 = toLeBytes 4 (crc32 record.body).toNat := by
      rw [← covered, checksum, toLeBytes_fromLeBytes checksumLength]
    refine ⟨valid, ?_⟩
    calc bytes = bytes.take 28 ++ bytes.drop 28 := (take_append_drop 28 bytes).symm
      _ = record.frame crc32 := by rw [covered, remainder, stamped, PageOwnershipRecord.frame]
  · rintro ⟨valid, rfl⟩
    obtain ⟨magic, version, kind, reserved, epoch, pageId, zeros, checksum⟩ :=
      PageOwnershipRecord.slices_frame crc32 record
    obtain ⟨large, small, real, -⟩ := id valid
    have epochRead : fromLeBytes (toLeBytes 8 record.epoch) = record.epoch := fromLeBytes_toLeBytes large
    have pageRead : fromLeBytes (toLeBytes 4 record.pageId) = record.pageId := fromLeBytes_toLeBytes small
    have checksumRead : fromLeBytes (toLeBytes 4 (crc32 record.body).toNat) = (crc32 record.body).toNat :=
      fromLeBytes_toLeBytes (crc32 record.body).toNat_lt
    unfold decodeRecord
    rw [if_neg (by simp), magic, version, reserved, zeros, if_neg (by simp), PageOwnershipRecord.take_frame, checksum,
      checksumRead, if_neg (by simp), epoch, epochRead, if_neg real, kind, pageId, pageRead]
    exact (recordOf_ok large small real).mpr ⟨rfl, valid⟩

end

inductive PageIntent
  | reserve (pageId : Nat)
  | retire (pageId : Nat)
  | detachFree (pageId : Nat)
  deriving DecidableEq, Repr

namespace PageIntent

def record (epoch : Nat) : PageIntent → PageOwnershipRecord
  | .reserve pageId => .reserve epoch pageId
  | .retire pageId => .retire epoch pageId
  | .detachFree pageId => .detachFree epoch pageId

def applyTo (current : PendingOwnershipEpoch) : PageIntent → PendingOwnershipEpoch
  | .reserve pageId => { current with reservedPages := insert pageId current.reservedPages }
  | .retire pageId => { current with retiredPages := insert pageId current.retiredPages }
  | .detachFree pageId => { current with detachedFreePages := insert pageId current.detachedFreePages }

end PageIntent

structure JournalEpoch where
  epoch : Nat
  intents : List PageIntent
  deriving DecidableEq, Repr

namespace JournalEpoch

section

variable (e : JournalEpoch)

def openRecords : List PageOwnershipRecord := .begin e.epoch :: e.intents.map (·.record e.epoch)

def closedRecords : List PageOwnershipRecord := e.openRecords ++ [.finish e.epoch]

structure Leaves (e : JournalEpoch) (pending : PendingOwnershipEpoch) : Prop where
  epoch : pending.epoch = e.epoch
  reserved : ∀ page, page ∈ pending.reservedPages ↔ .reserve page ∈ e.intents
  retired : ∀ page, page ∈ pending.retiredPages ↔ .retire page ∈ e.intents
  detached : ∀ page, page ∈ pending.detachedFreePages ↔ .detachFree page ∈ e.intents

theorem leaves_foldl : e.Leaves (e.intents.foldl PageIntent.applyTo ⟨e.epoch, ∅, ∅, ∅⟩) := by
  have general (intents : List PageIntent) (start : PendingOwnershipEpoch) :
      (intents.foldl PageIntent.applyTo start).epoch = start.epoch ∧
      (∀ page, page ∈ (intents.foldl PageIntent.applyTo start).reservedPages ↔
        page ∈ start.reservedPages ∨ .reserve page ∈ intents) ∧
      (∀ page, page ∈ (intents.foldl PageIntent.applyTo start).retiredPages ↔
        page ∈ start.retiredPages ∨ .retire page ∈ intents) ∧
      (∀ page, page ∈ (intents.foldl PageIntent.applyTo start).detachedFreePages ↔
        page ∈ start.detachedFreePages ∨ .detachFree page ∈ intents) := by
    induction intents generalizing start with
    | nil => simp
    | cons intent rest ih =>
      obtain ⟨epoch, reserved, retired, detached⟩ := ih (intent.applyTo start)
      rw [foldl_cons]
      refine ⟨?_, fun page => ?_, fun page => ?_, fun page => ?_⟩
      · rw [epoch]
        cases intent <;> rfl
      · rw [reserved]
        cases intent <;> grind [PageIntent.applyTo]
      · rw [retired]
        cases intent <;> grind [PageIntent.applyTo]
      · rw [detached]
        cases intent <;> grind [PageIntent.applyTo]
  obtain ⟨epoch, reserved, retired, detached⟩ := general e.intents ⟨e.epoch, ∅, ∅, ∅⟩
  exact ⟨epoch, by simpa using reserved, by simpa using retired, by simpa using detached⟩

end

theorem Leaves.unique {e : JournalEpoch} {a b : PendingOwnershipEpoch} (first : e.Leaves a) (second : e.Leaves b) :
    a = b := by
  obtain ⟨epoch, reserved, retired, detached⟩ := a
  obtain ⟨epochOther, reservedOther, retiredOther, detachedOther⟩ := b
  obtain rfl : epoch = epochOther := first.epoch.trans second.epoch.symm
  obtain rfl : reserved = reservedOther := Finset.ext fun page => (first.reserved page).trans (second.reserved page).symm
  obtain rfl : retired = retiredOther := Finset.ext fun page => (first.retired page).trans (second.retired page).symm
  obtain rfl : detached = detachedOther := Finset.ext fun page => (first.detached page).trans (second.detached page).symm
  rfl

end JournalEpoch

structure Journal where
  closed : List JournalEpoch
  current : Option JournalEpoch
  deriving DecidableEq, Repr

namespace Journal

section

variable (journal : Journal)

def records : List PageOwnershipRecord :=
  journal.closed.flatMap JournalEpoch.closedRecords ++ journal.current.toList.flatMap JournalEpoch.openRecords

def epochs : List Nat := (journal.closed ++ journal.current.toList).map JournalEpoch.epoch

def Opens (pending : Option PendingOwnershipEpoch) : Prop :=
  match journal.current, pending with
  | none, none => True
  | some e, some p => e.Leaves p
  | _, _ => False

end

end Journal

section

variable {last : Nat} {current : PendingOwnershipEpoch} {records : List PageOwnershipRecord} {final : JournalState}

namespace JournalState

def run (state : JournalState) : List PageOwnershipRecord → Except OwnershipJournalError JournalState
  | [] => .ok state
  | record :: rest =>
    match state.step record with
    | .error e => .error e
    | .ok next => next.run rest

theorem step_intent (current : PendingOwnershipEpoch) (last epoch : Nat) (intent : PageIntent) :
    step ⟨some current, last⟩ (intent.record epoch) =
      if current.epoch = epoch then .ok ⟨some (intent.applyTo current), last⟩ else .error invalidSequence := by
  cases intent <;> rfl

theorem epoch_applyTo (current : PendingOwnershipEpoch) (intent : PageIntent) :
    (intent.applyTo current).epoch = current.epoch := by
  cases intent <;> rfl

theorem run_intents (current : PendingOwnershipEpoch) (last : Nat) (intents : List PageIntent)
    (rest : List PageOwnershipRecord) :
    run ⟨some current, last⟩ (intents.map (·.record current.epoch) ++ rest) =
      run ⟨some (intents.foldl PageIntent.applyTo current), last⟩ rest := by
  induction intents generalizing current with
  | nil => rfl
  | cons intent more ih =>
    rw [map_cons, cons_append, run, step_intent, if_pos rfl, foldl_cons]
    rw [← ih, epoch_applyTo]

theorem run_open (ended : run ⟨some current, last⟩ records = .ok final) :
    (∃ intents : List PageIntent, records = intents.map (·.record current.epoch) ∧
      final = ⟨some (intents.foldl PageIntent.applyTo current), last⟩) ∨
    ∃ (intents : List PageIntent) (rest : List PageOwnershipRecord),
      records = intents.map (·.record current.epoch) ++ .finish current.epoch :: rest ∧
      run ⟨none, current.epoch⟩ rest = .ok final := by
  induction records generalizing current with
  | nil =>
    cases ended
    exact .inl ⟨[], rfl, rfl⟩
  | cons record rest ih =>
    have intent (i : PageIntent) (epoch : Nat) (same : record = i.record epoch) :
        (∃ intents : List PageIntent, record :: rest = intents.map (·.record current.epoch) ∧
          final = ⟨some (intents.foldl PageIntent.applyTo current), last⟩) ∨
        ∃ (intents : List PageIntent) (later : List PageOwnershipRecord),
          record :: rest = intents.map (·.record current.epoch) ++ .finish current.epoch :: later ∧
          run ⟨none, current.epoch⟩ later = .ok final := by
      rw [run, same, step_intent] at ended
      split_ifs at ended with own
      subst own
      rcases ih ended with ⟨intents, rfl, rfl⟩ | ⟨intents, later, rfl, continued⟩
      · exact .inl ⟨i :: intents, by simp [same, epoch_applyTo], rfl⟩
      · rw [epoch_applyTo] at continued
        exact .inr ⟨i :: intents, later, by simp [same, epoch_applyTo], continued⟩
    cases record with
    | begin epoch => simp [run, step] at ended
    | reserve epoch pageId => exact intent (.reserve pageId) epoch rfl
    | retire epoch pageId => exact intent (.retire pageId) epoch rfl
    | detachFree epoch pageId => exact intent (.detachFree pageId) epoch rfl
    | finish epoch =>
      by_cases own : current.epoch = epoch
      · subst own
        simp only [run, step, ne_eq, not_true_eq_false, if_false] at ended
        exact .inr ⟨[], rest, rfl, ended⟩
      · simp [run, step, own] at ended

theorem run_idle (ended : run ⟨none, last⟩ records = .ok final) :
    ∃ journal : Journal, records = journal.records ∧ (last :: journal.epochs).Pairwise (· < ·) ∧
      journal.Opens final.pending := by
  induction size : records.length using Nat.strong_induction_on generalizing records last with
  | _ n ih =>
    cases records with
    | nil =>
      cases ended
      exact ⟨⟨[], none⟩, rfl, by simp [Journal.epochs], trivial⟩
    | cons record rest =>
      cases record with
      | begin epoch =>
        by_cases stale : epoch ≤ last
        · simp [run, step, stale] at ended
        · have ahead := not_le.mp stale
          have opened : run ⟨some ⟨epoch, ∅, ∅, ∅⟩, last⟩ rest = .ok final := by
            simpa [run, step, stale] using ended
          rcases run_open opened with ⟨intents, rfl, rfl⟩ | ⟨intents, later, rfl, continued⟩
          · refine ⟨⟨[], some ⟨epoch, intents⟩⟩, ?_, ?_, JournalEpoch.leaves_foldl ⟨epoch, intents⟩⟩
            · simp [Journal.records, JournalEpoch.openRecords]
            · simpa [Journal.epochs] using ahead
          · obtain ⟨journal, rfl, increasing, opens⟩ := ih later.length (by simp at size; omega) continued rfl
            refine ⟨⟨⟨epoch, intents⟩ :: journal.closed, journal.current⟩, ?_, ?_, opens⟩
            · simp [Journal.records, JournalEpoch.closedRecords, JournalEpoch.openRecords]
            · have epochs : Journal.epochs ⟨⟨epoch, intents⟩ :: journal.closed, journal.current⟩ =
                  epoch :: journal.epochs := rfl
              rw [epochs]
              refine pairwise_cons.mpr ⟨fun other member => ?_, increasing⟩
              rcases mem_cons.mp member with rfl | later
              · exact ahead
              · exact ahead.trans (rel_of_pairwise_cons increasing later)
      | reserve epoch pageId | retire epoch pageId | detachFree epoch pageId => simp [run, step, amend] at ended
      | finish epoch => simp [run, step] at ended

theorem run_closed {e : JournalEpoch} (ahead : last < e.epoch) (rest : List PageOwnershipRecord) :
    run ⟨none, last⟩ (e.closedRecords ++ rest) = run ⟨none, e.epoch⟩ rest := by
  have fresh : ¬ e.epoch ≤ last := not_le.mpr ahead
  have intents := run_intents ⟨e.epoch, ∅, ∅, ∅⟩ last e.intents (.finish e.epoch :: rest)
  have same := (JournalEpoch.leaves_foldl e).epoch
  have unfolded : e.closedRecords ++ rest =
      .begin e.epoch :: (e.intents.map (·.record e.epoch) ++ .finish e.epoch :: rest) := by
    simp [JournalEpoch.closedRecords, JournalEpoch.openRecords]
  rw [unfolded, run]
  simp only [step, Option.isSome_none, Bool.false_eq_true, fresh, or_self, if_false]
  rw [intents]
  simp [run, step, same]

theorem run_journal {journal : Journal} (increasing : (last :: journal.epochs).Pairwise (· < ·)) :
    ∃ final, run ⟨none, last⟩ journal.records = .ok final ∧ journal.Opens final.pending := by
  obtain ⟨closed, current⟩ := journal
  induction closed generalizing last with
  | nil =>
    cases current with
    | none => exact ⟨⟨none, last⟩, rfl, trivial⟩
    | some e =>
      have ahead : last < e.epoch := rel_of_pairwise_cons increasing (by simp [Journal.epochs])
      have fresh : ¬ e.epoch ≤ last := not_le.mpr ahead
      have intents := run_intents ⟨e.epoch, ∅, ∅, ∅⟩ last e.intents []
      refine ⟨⟨some (e.intents.foldl PageIntent.applyTo ⟨e.epoch, ∅, ∅, ∅⟩), last⟩, ?_, e.leaves_foldl⟩
      have unfolded : Journal.records ⟨[], some e⟩ = .begin e.epoch :: (e.intents.map (·.record e.epoch) ++ []) := by
        simp [Journal.records, JournalEpoch.openRecords]
      rw [unfolded, run]
      simp only [step, Option.isSome_none, Bool.false_eq_true, fresh, or_self, if_false]
      exact intents
  | cons e rest ih =>
    have epochs : Journal.epochs ⟨e :: rest, current⟩ = e.epoch :: Journal.epochs ⟨rest, current⟩ := rfl
    rw [epochs] at increasing
    have ahead : last < e.epoch := rel_of_pairwise_cons increasing mem_cons_self
    obtain ⟨final, ended, opens⟩ := ih (pairwise_cons.mp increasing).2
    have unfolded : Journal.records ⟨e :: rest, current⟩ = e.closedRecords ++ Journal.records ⟨rest, current⟩ := by
      simp [Journal.records]
    exact ⟨final, by rw [unfolded, run_closed ahead, ended], opens⟩

theorem scan_ok {crc32 : Bytes → UInt32} {state : JournalState} {frames : List Bytes} :
    state.scan crc32 frames = .ok final ↔ ∃ records : List PageOwnershipRecord, (∀ record ∈ records, record.Valid) ∧
        frames = records.map (·.frame crc32) ∧ state.run records = .ok final := by
  constructor
  · intro scanned
    induction frames generalizing state with
    | nil => exact ⟨[], by simp, rfl, scanned⟩
    | cons frame rest ih =>
      unfold scan at scanned
      cases decoded : decodeRecord crc32 frame with
      | error e => simp [decoded] at scanned
      | ok record =>
        cases stepped : state.step record with
        | error e => simp [decoded, stepped] at scanned
        | ok next =>
          simp only [decoded, stepped] at scanned
          obtain ⟨valid, rfl⟩ := decodeRecord_ok.mp decoded
          obtain ⟨records, valids, rfl, ended⟩ := ih scanned
          refine ⟨record :: records, ?_, rfl, by rw [run, stepped]; exact ended⟩
          simpa using ⟨valid, valids⟩
  · rintro ⟨records, valids, rfl, ended⟩
    induction records generalizing state with
    | nil => exact ended
    | cons record rest ih =>
      have decoded : decodeRecord crc32 (record.frame crc32) = .ok record :=
        decodeRecord_ok.mpr ⟨valids record mem_cons_self, rfl⟩
      cases stepped : state.step record with
      | error e => simp [run, stepped] at ended
      | ok next =>
        simp only [run, stepped] at ended
        simp only [map_cons, scan, decoded, stepped]
        exact ih (fun other member => valids other (mem_cons_of_mem _ member)) ended

end JournalState

theorem pendingEpoch_ok {crc32 : Bytes → UInt32} {bytes : Bytes} {pending : Option PendingOwnershipEpoch} :
    pendingEpoch crc32 bytes = .ok pending ↔
      ∃ journal : Journal, (∀ record ∈ journal.records, record.Valid) ∧ journal.epochs.Pairwise (· < ·) ∧
        bytes = journal.records.flatMap (·.frame crc32) ∧ journal.Opens pending := by
  constructor
  · intro accepted
    unfold pendingEpoch at accepted
    split_ifs at accepted
    cases scanned : JournalState.initial.scan crc32 (chunks recordSize bytes) with
    | error e => simp [scanned] at accepted
    | ok final =>
      simp only [scanned, Except.ok.injEq] at accepted
      subst accepted
      obtain ⟨records, valids, frames, ended⟩ := JournalState.scan_ok.mp scanned
      obtain ⟨journal, rfl, increasing, opens⟩ := JournalState.run_idle ended
      refine ⟨journal, valids, (pairwise_cons.mp increasing).2, ?_, opens⟩
      rw [← flatten_chunks recordSize bytes, frames, List.flatMap]
  · rintro ⟨journal, valids, increasing, rfl, opens⟩
    have positive : ∀ epoch ∈ journal.epochs, 0 < epoch := by
      intro epoch member
      simp only [Journal.epochs, mem_map, mem_append] at member
      obtain ⟨e, held, rfl⟩ := member
      have named : PageOwnershipRecord.begin e.epoch ∈ journal.records := by
        simp only [Journal.records, mem_append, mem_flatMap]
        rcases held with closed | current
        · exact .inl ⟨e, closed, by simp [JournalEpoch.closedRecords, JournalEpoch.openRecords]⟩
        · exact .inr ⟨e, current, by simp [JournalEpoch.openRecords]⟩
      exact Nat.pos_of_ne_zero (valids _ named).2.2.1
    obtain ⟨final, ended, opened⟩ := JournalState.run_journal (pairwise_cons.mpr ⟨positive, increasing⟩)
    have lengths : ∀ frame ∈ journal.records.map (·.frame crc32), frame.length = recordSize := by
      intro frame member
      obtain ⟨record, -, rfl⟩ := mem_map.mp member
      exact record.length_frame
    have whole : (journal.records.flatMap (·.frame crc32)).length % recordSize = 0 := by
      rw [length_flatMap]
      simp
    have frames : chunks recordSize (journal.records.flatMap (·.frame crc32)) =
        journal.records.map (·.frame crc32) := chunks_flatten (by decide) lengths
    have scanned : JournalState.scan crc32 ⟨none, 0⟩ (journal.records.map (·.frame crc32)) = .ok final :=
      JournalState.scan_ok.mpr ⟨journal.records, valids, rfl, ended⟩
    have same : final.pending = pending := by
      revert opens opened
      unfold Journal.Opens
      cases journal.current <;> cases final.pending <;> cases pending <;> simp only [false_implies, implies_true]
      · intro first second
        rw [second.unique first]
    have start : JournalState.initial = ⟨none, 0⟩ := rfl
    unfold pendingEpoch
    rw [if_neg (not_not.mpr whole), frames, start, scanned, ← same]

end

section

variable {published : Bool} {firstAllocatable pageCount : Nat} {retired : Finset Nat} {pages : List Nat}
  {sets planned : PageSets}

def InRange (firstAllocatable pageCount page : Nat) : Prop := firstAllocatable ≤ page ∧ page < pageCount

theorem planReserved_ok (ok : planReserved published firstAllocatable pageCount retired pages sets = .ok planned) :
    (∀ page ∈ pages, published = true → InRange firstAllocatable pageCount page ∧ page ∉ retired) ∧
    (∀ page, page ∈ planned.preserve ↔ page ∈ sets.preserve ∨ (page ∈ pages ∧ published = true)) ∧
    (∀ page, page ∈ planned.release ↔ page ∈ sets.release ∨
      (page ∈ pages ∧ published = false ∧ InRange firstAllocatable pageCount page)) := by
  induction pages generalizing sets with
  | nil =>
    cases ok
    simp
  | cons page rest ih =>
    unfold planReserved at ok
    split_ifs at ok with low high out kept listed
    · obtain ⟨-, preserve, release⟩ := ih ok
      have outside : ¬ InRange firstAllocatable pageCount page := fun inside => absurd inside.2 (not_lt.mpr high)
      refine ⟨by simp [out], fun other => ?_, fun other => ?_⟩
      · rw [preserve]
        simp [out]
      · rw [release]
        grind
    · obtain ⟨within, preserve, release⟩ := ih ok
      have inside : InRange firstAllocatable pageCount page := ⟨not_lt.mp low, not_le.mp high⟩
      refine ⟨?_, fun other => ?_, fun other => ?_⟩
      · simpa [kept] using ⟨⟨inside, listed⟩, fun other member => within other member kept⟩
      · rw [preserve]
        grind
      · rw [release]
        simp [kept]
    · obtain ⟨-, preserve, release⟩ := ih ok
      have inside : InRange firstAllocatable pageCount page := ⟨not_lt.mp low, not_le.mp high⟩
      refine ⟨by simp [kept], fun other => ?_, fun other => ?_⟩
      · rw [preserve]
        simp [kept]
      · rw [release]
        grind

theorem inRange_of_not {page : Nat} (inside : ¬ (page < firstAllocatable ∨ pageCount ≤ page)) :
    InRange firstAllocatable pageCount page := by
  unfold InRange
  omega

theorem planDetached_ok (ok : planDetached firstAllocatable pageCount pages sets = .ok planned) :
    (∀ page ∈ pages, InRange firstAllocatable pageCount page) ∧ planned.preserve = sets.preserve ∧
    ∀ page, page ∈ planned.release ↔ page ∈ sets.release ∨ (page ∈ pages ∧ page ∉ sets.preserve) := by
  induction pages generalizing sets with
  | nil =>
    cases ok
    simp
  | cons page rest ih =>
    unfold planDetached at ok
    split_ifs at ok with outside kept
    all_goals
      obtain ⟨within, preserve, release⟩ := ih ok
      refine ⟨forall_mem_cons.mpr ⟨inRange_of_not outside, within⟩, preserve, fun other => ?_⟩
      rw [release]
    · grind
    · grind

theorem planRetired_ok (ok : planRetired published firstAllocatable pageCount pages sets = .ok planned) :
    (∀ page ∈ pages, InRange firstAllocatable pageCount page) ∧ planned.preserve = sets.preserve ∧
    ∀ page, page ∈ planned.release ↔ page ∈ sets.release ∨ (page ∈ pages ∧ published = true) := by
  induction pages generalizing sets with
  | nil =>
    cases ok
    simp
  | cons page rest ih =>
    unfold planRetired at ok
    split_ifs at ok with outside kept
    all_goals
      obtain ⟨within, preserve, release⟩ := ih ok
      refine ⟨forall_mem_cons.mpr ⟨inRange_of_not outside, within⟩, preserve, fun other => ?_⟩
      rw [release]
    · grind
    · simp [kept]

@[simp] theorem mem_ascending {pages : Finset Nat} {page : Nat} : page ∈ ascending pages ↔ page ∈ pages :=
  Finset.mem_sort _

theorem nodup_ascending (pages : Finset Nat) : (ascending pages).Nodup := Finset.sort_nodup _ _

variable {pending : PendingOwnershipEpoch} {catalogEpoch : Nat} {plan : OwnershipRecoveryPlan}

structure Plans (pending : PendingOwnershipEpoch) (catalogEpoch firstAllocatable pageCount : Nat)
    (plan : OwnershipRecoveryPlan) : Prop where
  nodup : plan.release.Nodup ∧ plan.preserve.Nodup
  preserve : ∀ page, page ∈ plan.preserve ↔ page ∈ pending.reservedPages ∧ catalogEpoch = pending.epoch
  release : ∀ page, page ∈ plan.release ↔
    (page ∈ pending.reservedPages ∧ catalogEpoch ≠ pending.epoch ∧ InRange firstAllocatable pageCount page) ∨
    (page ∈ pending.detachedFreePages ∧ page ∉ plan.preserve) ∨
    (page ∈ pending.retiredPages ∧ catalogEpoch = pending.epoch)
  reserved : catalogEpoch = pending.epoch → ∀ page ∈ pending.reservedPages,
    InRange firstAllocatable pageCount page ∧ page ∉ pending.retiredPages
  detached : ∀ page ∈ pending.detachedFreePages, InRange firstAllocatable pageCount page
  retired : ∀ page ∈ pending.retiredPages, InRange firstAllocatable pageCount page

theorem plans_of_recoveryPlan (ok : recoveryPlan pending catalogEpoch firstAllocatable pageCount = .ok plan) :
    Plans pending catalogEpoch firstAllocatable pageCount plan := by
  unfold recoveryPlan at ok
  split_ifs at ok
  obtain ⟨first, reservedOk, ok⟩ := except_bind_ok ok
  obtain ⟨second, detachedOk, ok⟩ := except_bind_ok ok
  obtain ⟨third, retiredOk, ok⟩ := except_bind_ok ok
  cases ok
  obtain ⟨reserved, preserve, release⟩ := planReserved_ok reservedOk
  obtain ⟨detached, preserveSecond, releaseSecond⟩ := planDetached_ok detachedOk
  obtain ⟨retired, preserveThird, releaseThird⟩ := planRetired_ok retiredOk
  have kept (page : Nat) : page ∈ ascending third.preserve ↔
      page ∈ pending.reservedPages ∧ catalogEpoch = pending.epoch := by
    rw [mem_ascending, preserveThird, preserveSecond, preserve]
    simp
  refine ⟨⟨nodup_ascending _, nodup_ascending _⟩, kept, fun page => ?_, ?_, ?_, ?_⟩
  · rw [mem_ascending, mem_ascending, releaseThird, releaseSecond, release, preserveThird, preserveSecond]
    simp
    tauto
  · intro same page member
    exact reserved page (by simpa using member) (by simpa using same)
  · exact fun page member => detached page (by simpa using member)
  · exact fun page member => retired page (by simpa using member)

/-- Recovery accepts exactly the well-formed journals, and its plan is safe whether or not the open epoch was
    published. -/
theorem ownershipRecovery_sound :
    (∀ (crc32 : Bytes → UInt32) (bytes : Bytes) (pending : Option PendingOwnershipEpoch),
      pendingEpoch crc32 bytes = .ok pending ↔
        ∃ journal : Journal, (∀ record ∈ journal.records, record.Valid) ∧ journal.epochs.Pairwise (· < ·) ∧
          bytes = journal.records.flatMap (·.frame crc32) ∧ journal.Opens pending) ∧
    ∀ pending catalogEpoch firstAllocatable pageCount plan,
      recoveryPlan pending catalogEpoch firstAllocatable pageCount = .ok plan →
        plan.release.Nodup ∧ plan.preserve.Nodup ∧ plan.release.Disjoint plan.preserve ∧
        (∀ page ∈ plan.release ++ plan.preserve, firstAllocatable ≤ page ∧ page < pageCount) ∧
        (catalogEpoch = pending.epoch → ∀ page ∈ pending.reservedPages, page ∉ plan.release) ∧
        (catalogEpoch ≠ pending.epoch → ∀ page ∈ pending.retiredPages, page ∉ pending.reservedPages →
          page ∉ pending.detachedFreePages → page ∉ plan.release) ∧
        ∀ page ∈ pending.detachedFreePages, page ∈ plan.release ∨ page ∈ plan.preserve := by
  refine ⟨fun crc32 bytes pending => pendingEpoch_ok, ?_⟩
  intro pending catalogEpoch firstAllocatable pageCount plan ok
  have plans := plans_of_recoveryPlan ok
  have apart : plan.release.Disjoint plan.preserve := by
    intro page released preserved
    obtain ⟨held, published⟩ := (plans.preserve page).mp preserved
    rcases (plans.release page).mp released with ⟨-, unpublished, -⟩ | ⟨-, absent⟩ | ⟨retired, -⟩
    · exact unpublished published
    · exact absent preserved
    · exact (plans.reserved published page held).2 retired
  refine ⟨plans.nodup.1, plans.nodup.2, apart, ?_, ?_, ?_, ?_⟩
  · intro page member
    rcases mem_append.mp member with released | preserved
    · rcases (plans.release page).mp released with ⟨-, -, inside⟩ | ⟨detached, -⟩ | ⟨retired, -⟩
      · exact inside
      · exact plans.detached page detached
      · exact plans.retired page retired
    · obtain ⟨held, published⟩ := (plans.preserve page).mp preserved
      exact (plans.reserved published page held).1
  · intro published page held released
    exact apart released ((plans.preserve page).mpr ⟨held, published⟩)
  · intro unpublished page _ notReserved notDetached released
    rcases (plans.release page).mp released with ⟨held, -⟩ | ⟨detached, -⟩ | ⟨-, published⟩
    · exact notReserved held
    · exact notDetached detached
    · exact unpublished published
  · intro page detached
    by_cases preserved : page ∈ plan.preserve
    · exact .inr preserved
    · exact .inl ((plans.release page).mpr (.inr (.inl ⟨detached, preserved⟩)))

/-- A published epoch keeps its reserved page and gives back the detached and the retired one. -/
example : recoveryPlan ⟨3, {70}, {71}, {70, 72}⟩ 3 67 80 = .ok ⟨[71, 72], [70]⟩ := by
  simp [recoveryPlan, ascending, planReserved, planDetached, planRetired, bind, Except.bind, Finset.sort_insert]

end

end RedDB.Pager
