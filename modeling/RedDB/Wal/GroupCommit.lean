import RedDB.Library.Runs
import RedDB.Wal.Record

namespace RedDB.Wal

open List Library Function

structure QueuedBlob where
  lsn : Nat
  call : Nat
  bytes : Bytes
  deriving DecidableEq

def QueuedBlob.target (blob : QueuedBlob) : Nat := blob.lsn + blob.bytes.length

/-- Where a call of `append_actions` stands; from `enqueued` until it returns it holds an epoch lease. -/
inductive CallPhase
  | idle
  | enqueued (target : Nat)
  | waiting (target : Nat)
  | returned (ok : Bool)
  deriving DecidableEq

def CallPhase.inFlight : CallPhase → Bool
  | .enqueued _ | .waiting _ => true
  | .idle | .returned _ => false

def CallPhase.awaits (phase : CallPhase) (target : Nat) : Prop := phase = .enqueued target ∨ phase = .waiting target

/-- Where the background flusher stands; it holds an epoch lease from the drain to the publication. -/
inductive FlusherPhase
  | idle
  | woken
  | drained (batches : List QueuedBlob)
  | flushed (result : Except String Nat)

def FlusherPhase.batches : FlusherPhase → List QueuedBlob
  | .drained batches => batches
  | _ => []

def FlusherPhase.leased : FlusherPhase → Bool
  | .drained _ | .flushed _ => true
  | .idle | .woken => false

def walBufferBytes : Nat := 64 * 1024

/-- Which of the writes to the file fails in an append: the one of the buffer or the one of a blob too long
for it. -/
inductive FailingWrite
  | buffer
  | blob
  deriving DecidableEq

inductive SyncResult
  | ok
  | bufferFailed
  | fsyncFailed
  deriving DecidableEq

/-- `VfsBufWriter::write_all`: the bytes left in the buffer, and whether the write succeeded. -/
def writeAll (failing : Option FailingWrite) (buffered len : Nat) : Nat × Bool :=
  if walBufferBytes < buffered + len ∧ buffered ≠ 0 ∧ failing = some .buffer then (buffered, false)
  else
    let kept := if walBufferBytes < buffered + len then 0 else buffered
    if walBufferBytes ≤ len then (kept, failing ≠ some .blob) else (kept + len, true)

/-- The coordinator in grouped mode: the queue, the WAL writer with its buffer, the shared commit state, the
flusher and the calls. `written` are the calls whose bytes the writer has taken completely, into its buffer
or into the file, since its last successful sync, `covered` those whose bytes a successful sync covered. -/
structure Coordinator where
  nextLsn : Nat
  entries : List QueuedBlob
  currentLsn : Nat
  walDurable : Nat
  buffered : Nat
  durableLsn : Nat
  pendingTarget : Nat
  lastError : Option String
  flusher : FlusherPhase
  started : Nat
  calls : Nat → CallPhase
  written : List Nat
  covered : List Nat

inductive CommitOp
  | append (bytes : Bytes)
  | register (call : Nat)
  | wake (call : Nat)
  | flusherWake
  | drain
  | flush (faults : List (Option FailingWrite)) (sync : SyncResult) (error : String)
  | publish
  | truncate (faults : List (Option FailingWrite)) (sync : SyncResult) (length : Option Nat)
  deriving DecidableEq

namespace Coordinator

def start (lsn : Nat) : Coordinator where
  nextLsn := lsn
  entries := []
  currentLsn := lsn
  walDurable := lsn
  buffered := 0
  durableLsn := lsn
  pendingTarget := lsn
  lastError := none
  flusher := .idle
  started := 0
  calls _ := .idle
  written := []
  covered := []

section

variable (s : Coordinator)

def enqueue (bytes : Bytes) : Coordinator :=
  { s with
    nextLsn := s.nextLsn + bytes.length
    entries := s.entries ++ [⟨s.nextLsn, s.started, bytes⟩]
    calls := Function.update s.calls s.started (.enqueued (s.nextLsn + bytes.length))
    started := s.started + 1 }

def drainSorted : List QueuedBlob := s.entries.insertionSort (·.lsn ≤ ·.lsn)

/-- One turn of the loop in `wait_until_durable`: the error is looked at first. -/
def observe (target : Nat) : CallPhase :=
  if s.lastError.isSome then .returned false
  else if target ≤ s.durableLsn then .returned true
  else .waiting target

/-- `faults` tells, blob by blob, which write to the file fails. -/
def appendEach (compareOffsets : Bool) :
    List (Option FailingWrite) → List QueuedBlob → Coordinator → Coordinator × Bool
  | _, [], s => (s, true)
  | faults, blob :: blobs, s =>
    if compareOffsets ∧ blob.lsn ≠ s.currentLsn then (s, false)
    else
      match writeAll (faults.headD none) s.buffered blob.bytes.length with
      | (buffered, false) => ({ s with buffered }, false)
      | (buffered, true) =>
        appendEach compareOffsets faults.tail blobs
          { s with currentLsn := s.currentLsn + blob.bytes.length, written := s.written ++ [blob.call], buffered }

/-- `WalWriter::sync` writes the buffer out before the file is synced. -/
def syncWal : SyncResult → Coordinator
  | .ok => { s with walDurable := s.currentLsn, covered := s.covered ++ s.written, written := [], buffered := 0 }
  | .bufferFailed => s
  | .fsyncFailed => { s with buffered := 0 }

def resetAfterTruncate (length : Nat) : Coordinator :=
  { s with
    currentLsn := length
    walDurable := length
    buffered := 0
    written := []
    nextLsn := length
    entries := []
    durableLsn := length
    pendingTarget := length
    lastError := none }

def step : CommitOp → Option Coordinator
  | .append bytes => if bytes ≠ [] then some (s.enqueue bytes) else none
  | .register call =>
    match s.calls call with
    | .enqueued target =>
      some { s with
        pendingTarget := max s.pendingTarget target
        calls := Function.update s.calls call (s.observe target) }
    | _ => none
  | .wake call =>
    match s.calls call with
    | .waiting target => some { s with calls := Function.update s.calls call (s.observe target) }
    | _ => none
  | .flusherWake =>
    match s.flusher with
    | .idle => if s.durableLsn < s.pendingTarget then some { s with flusher := .woken } else none
    | _ => none
  | .drain =>
    match s.flusher with
    | .woken => some { s with flusher := .drained s.drainSorted, entries := [] }
    | _ => none
  | .flush faults sync error =>
    match s.flusher with
    | .drained batches =>
      let (written, complete) := appendEach false faults batches s
      if complete then
        let synced := written.syncWal sync
        some { synced with flusher := .flushed (if sync = .ok then .ok synced.walDurable else .error error) }
      else some { written with flusher := .flushed (.error error) }
    | _ => none
  | .publish =>
    match s.flusher with
    | .flushed (.ok durable) => some { s with durableLsn := durable, lastError := none, flusher := .idle }
    | .flushed (.error e) => some { s with lastError := some e, flusher := .idle }
    | _ => none
  | .truncate faults sync length =>
    if s.flusher.leased ∨ ∃ call < s.started, (s.calls call).inFlight then none
    else
      let (written, complete) := appendEach true faults s.drainSorted { s with entries := [] }
      if complete then
        let synced := written.syncWal sync
        match length with
        | some length => some (if sync = .ok then synced.resetAfterTruncate length else synced)
        | none => some synced
      else some written

def Acknowledged : Prop := ∀ call, s.calls call = .returned true → call ∈ s.covered

end

def Admits (_ : Coordinator) : CommitOp → Prop
  | .flush faults _ _ => faults = []
  | .truncate faults _ _ => faults = []
  | _ => True

instance (s : Coordinator) (op : CommitOp) : Decidable (s.Admits op) :=
  match op with
  | .flush .. | .truncate .. => inferInstanceAs (Decidable (_ = _))
  | .append _ | .register _ | .wake _ | .flusherWake | .drain | .publish => inferInstanceAs (Decidable True)

/-- Blobs that lie one behind the other from offset `a` to offset `b`. -/
def Contiguous : Nat → List QueuedBlob → Nat → Prop
  | a, [], b => a = b
  | a, blob :: blobs, b => blob.lsn = a ∧ blob.bytes ≠ [] ∧ Contiguous (a + blob.bytes.length) blobs b

variable {a b : Nat} {blobs : List QueuedBlob}

theorem contiguous_snoc {bytes : Bytes} (call : Nat) (contiguous : Contiguous a blobs b) (nonempty : bytes ≠ []) :
    Contiguous a (blobs ++ [⟨b, call, bytes⟩]) (b + bytes.length) := by
  induction blobs generalizing a with
  | nil =>
    cases contiguous
    exact ⟨rfl, nonempty, rfl⟩
  | cons blob blobs ih => exact ⟨contiguous.1, contiguous.2.1, ih contiguous.2.2⟩

section

variable (contiguous : Contiguous a blobs b)
include contiguous

theorem Contiguous.above {blob : QueuedBlob} (listed : blob ∈ blobs) : a ≤ blob.lsn ∧ a < blob.target := by
  induction blobs generalizing a with
  | nil => cases listed
  | cons first blobs ih =>
    obtain ⟨lsn, nonempty, rest⟩ := contiguous
    have positive := length_pos_of_ne_nil nonempty
    rcases mem_cons.mp listed with rfl | later
    · exact ⟨lsn.ge, by rw [QueuedBlob.target]; omega⟩
    · have above := ih rest later
      omega

theorem Contiguous.le : a ≤ b := by
  induction blobs generalizing a with
  | nil => exact le_of_eq contiguous
  | cons blob blobs ih => exact (Nat.le_add_right a _).trans (ih contiguous.2.2)

theorem Contiguous.sorted : blobs.Pairwise (·.lsn ≤ ·.lsn) := by
  induction blobs generalizing a with
  | nil => exact .nil
  | cons first blobs ih =>
    obtain ⟨lsn, -, rest⟩ := contiguous
    refine pairwise_cons.mpr ⟨fun blob listed => ?_, ih rest⟩
    have above := (rest.above listed).1
    omega

end

theorem Contiguous.append_left {c : Nat} {first second : List QueuedBlob}
    (contiguous : Contiguous a (first ++ second) c) : ∃ b, Contiguous a first b ∧ Contiguous b second c := by
  induction first generalizing a with
  | nil => exact ⟨a, rfl, contiguous⟩
  | cons blob blobs ih =>
    obtain ⟨lsn, nonempty, rest⟩ := contiguous
    obtain ⟨b, left, right⟩ := ih rest
    exact ⟨b, ⟨lsn, nonempty, left⟩, right⟩

theorem writeAll_ok (buffered len : Nat) : (writeAll none buffered len).2 = true := by
  simp only [writeAll, reduceCtorEq, and_false, if_false]
  split <;> rfl

theorem appendEach_contiguous (compareOffsets : Bool) {s : Coordinator}
    (contiguous : Contiguous s.currentLsn blobs b) :
    ∃ buffered, appendEach compareOffsets [] blobs s =
      ({ s with currentLsn := b, written := s.written ++ blobs.map (·.call), buffered }, true) := by
  induction blobs generalizing s with
  | nil =>
    cases contiguous
    exact ⟨s.buffered, by simp [appendEach]⟩
  | cons blob blobs ih =>
    obtain ⟨lsn, -, rest⟩ := contiguous
    have placed : ¬ (compareOffsets = true ∧ blob.lsn ≠ s.currentLsn) := fun off => off.2 lsn
    rcases outcome : writeAll none s.buffered blob.bytes.length with ⟨buffered, taken⟩
    obtain rfl : taken = true := by
      have ok := writeAll_ok s.buffered blob.bytes.length
      rwa [outcome] at ok
    obtain ⟨after, appended⟩ := ih (s := { s with
      currentLsn := s.currentLsn + blob.bytes.length, written := s.written ++ [blob.call], buffered }) rest
    exact ⟨after, by simp [appendEach, placed, outcome, appended]⟩

structure Inv (s : Coordinator) : Prop where
  contiguous : Contiguous s.currentLsn (s.flusher.batches ++ s.entries) s.nextLsn
  synced_le : s.walDurable ≤ s.currentLsn
  durable_le : s.durableLsn ≤ s.walDurable
  flushed_le : ∀ durable, s.flusher = .flushed (.ok durable) → durable ≤ s.walDurable
  fresh : ∀ call, s.started ≤ call → s.calls call = .idle
  held : ∀ call target, (s.calls call).awaits target →
    (∃ blob ∈ s.flusher.batches ++ s.entries, blob.call = call ∧ blob.target = target) ∨
      call ∈ s.covered ∨ call ∈ s.written ∧ s.walDurable < target
  acknowledged : s.Acknowledged

variable {s t : Coordinator}

theorem inv_start (lsn : Nat) : Inv (start lsn) where
  contiguous := rfl
  synced_le := le_rfl
  durable_le := le_rfl
  flushed_le _ impossible := by cases impossible
  fresh _ _ := rfl
  held _ _ awaits := by rcases awaits with impossible | impossible <;> cases impossible
  acknowledged _ impossible := by cases impossible

section

variable (inv : Inv s)
include inv

theorem Inv.enqueue {bytes : Bytes} (nonempty : bytes ≠ []) : Inv (s.enqueue bytes) where
  contiguous := by
    have extended := contiguous_snoc s.started inv.contiguous nonempty
    rwa [append_assoc] at extended
  synced_le := inv.synced_le
  durable_le := inv.durable_le
  flushed_le := inv.flushed_le
  fresh call later := by
    have other : call ≠ s.started := ne_of_gt later
    exact (update_of_ne other ..).trans (inv.fresh call (Nat.le_of_succ_le later))
  held call target awaits := by
    by_cases same : call = s.started
    · subst same
      have value : (s.enqueue bytes).calls s.started = .enqueued (s.nextLsn + bytes.length) :=
        update_self ..
      rw [value] at awaits
      rcases awaits with enqueued | impossible
      · cases enqueued
        exact .inl ⟨⟨s.nextLsn, s.started, bytes⟩, by simp [Coordinator.enqueue], rfl, rfl⟩
      · cases impossible
    · have value : (s.enqueue bytes).calls call = s.calls call := update_of_ne same ..
      rw [value] at awaits
      rcases inv.held call target awaits with ⟨blob, listed, found⟩ | settled
      · refine .inl ⟨blob, ?_, found⟩
        rcases mem_append.mp listed with drained | queued
        · exact mem_append_left _ drained
        · exact mem_append_right _ (mem_append_left _ queued)
      · exact .inr settled
  acknowledged call returned := by
    by_cases same : call = s.started
    · subst same
      rw [show (s.enqueue bytes).calls s.started = .enqueued _ from update_self ..] at returned
      cases returned
    · rw [show (s.enqueue bytes).calls call = s.calls call from update_of_ne same ..] at returned
      exact inv.acknowledged call returned

theorem Inv.reached {call target : Nat} (awaits : (s.calls call).awaits target)
    (durable : target ≤ s.durableLsn) : call ∈ s.covered := by
  have synced := inv.durable_le
  have appended := inv.synced_le
  rcases inv.held call target awaits with ⟨blob, listed, -, rfl⟩ | covered | ⟨-, later⟩
  · have above := (inv.contiguous.above listed).2
    omega
  · exact covered
  · omega

theorem Inv.observed {call target : Nat} (awaits : (s.calls call).awaits target) (pending : Nat) :
    Inv { s with pendingTarget := pending, calls := Function.update s.calls call (s.observe target) } where
  contiguous := inv.contiguous
  synced_le := inv.synced_le
  durable_le := inv.durable_le
  flushed_le := inv.flushed_le
  fresh other later := by
    have different : other ≠ call := by
      rintro rfl
      rw [inv.fresh other later] at awaits
      rcases awaits with impossible | impossible <;> cases impossible
    exact (update_of_ne different ..).trans (inv.fresh other later)
  held other target' awaits' := by
    by_cases same : other = call
    · subst same
      dsimp only at awaits'
      rw [update_self] at awaits'
      have still : target' = target := by
        unfold Coordinator.observe at awaits'
        split_ifs at awaits' <;> rcases awaits' with phase | phase <;> cases phase
        rfl
      subst still
      exact inv.held other target' awaits
    · dsimp only at awaits'
      rw [update_of_ne same] at awaits'
      exact inv.held other target' awaits'
  acknowledged other returned := by
    by_cases same : other = call
    · subst same
      dsimp only at returned
      rw [update_self] at returned
      have durable : target ≤ s.durableLsn := by
        unfold Coordinator.observe at returned
        split_ifs at returned with failed durable
        · cases returned
        · exact durable
      exact inv.reached awaits durable
    · dsimp only at returned
      rw [update_of_ne same] at returned
      exact inv.acknowledged other returned

theorem Inv.drained (woken : s.flusher = .woken) :
    Inv { s with flusher := .drained s.drainSorted, entries := [] } := by
  have contiguous := inv.contiguous
  rw [woken] at contiguous
  have sorted : s.drainSorted = s.entries := contiguous.sorted.insertionSort_eq
  rw [sorted]
  exact {
    contiguous := (append_nil s.entries).symm ▸ contiguous
    synced_le := inv.synced_le
    durable_le := inv.durable_le
    flushed_le := nofun
    fresh := inv.fresh
    held := by
      intro call target awaits
      have held := inv.held call target awaits
      rw [woken] at held
      exact (append_nil s.entries).symm ▸ held
    acknowledged := inv.acknowledged }

theorem Inv.appended {entries : List QueuedBlob} (flusher : FlusherPhase) (buffered : Nat)
    (order : s.flusher.batches ++ s.entries = blobs ++ (flusher.batches ++ entries))
    (placed : Contiguous s.currentLsn blobs b) (rest : Contiguous b (flusher.batches ++ entries) s.nextLsn)
    (unpublished : ∀ durable, flusher = .flushed (.ok durable) → durable ≤ s.walDurable) :
    Inv { s with
      currentLsn := b
      written := s.written ++ blobs.map (·.call)
      buffered := buffered
      flusher := flusher
      entries := entries } where
  contiguous := rest
  synced_le := inv.synced_le.trans placed.le
  durable_le := inv.durable_le
  flushed_le := unpublished
  fresh := inv.fresh
  held call target awaits := by
    rcases inv.held call target awaits with ⟨blob, listed, rfl, rfl⟩ | covered | ⟨written, later⟩
    · rw [order] at listed
      rcases mem_append.mp listed with now | still
      · refine .inr (.inr ⟨mem_append_right _ (mem_map_of_mem now), ?_⟩)
        exact inv.synced_le.trans_lt (placed.above now).2
      · exact .inl ⟨blob, still, rfl, rfl⟩
    · exact .inr (.inl covered)
    · exact .inr (.inr ⟨mem_append_left _ written, later⟩)
  acknowledged := inv.acknowledged

theorem Inv.synced (sync : SyncResult) : Inv (s.syncWal sync) := by
  cases sync with
  | ok =>
    exact {
      contiguous := inv.contiguous
      synced_le := le_rfl
      durable_le := inv.durable_le.trans inv.synced_le
      flushed_le := fun durable flushed => (inv.flushed_le durable flushed).trans inv.synced_le
      fresh := inv.fresh
      held := by
        intro call target awaits
        rcases inv.held call target awaits with pending | covered | ⟨written, -⟩
        · exact .inl pending
        · exact .inr (.inl (mem_append_left _ covered))
        · exact .inr (.inl (mem_append_right _ written))
      acknowledged := fun call returned => mem_append_left _ (inv.acknowledged call returned) }
  | bufferFailed => exact inv
  | fsyncFailed => exact { inv with }

theorem Inv.flushed {batches : List QueuedBlob} (drained : s.flusher = .drained batches)
    (sync : SyncResult) (error : String) (taken : s.step (.flush [] sync error) = some t) : Inv t := by
  have contiguous := inv.contiguous
  rw [drained, FlusherPhase.batches] at contiguous
  obtain ⟨b, placed, rest⟩ := contiguous.append_left
  obtain ⟨buffered, appended⟩ := appendEach_contiguous false placed
  have order : s.flusher.batches ++ s.entries = batches ++ s.entries := by rw [drained, FlusherPhase.batches]
  have synced := (inv.appended .idle buffered order placed rest nofun).synced sync
  simp only [step, drained, appended, if_true] at taken
  rw [← Option.some.inj taken]
  cases sync with
  | ok =>
    exact { synced with
      flushed_le := by
        intro durable same
        cases same
        exact le_rfl }
  | bufferFailed => exact { synced with flushed_le := nofun }
  | fsyncFailed => exact { synced with flushed_le := nofun }

theorem Inv.published {durable : Nat} (flushed : s.flusher = .flushed (.ok durable)) :
    Inv { s with durableLsn := durable, lastError := none, flusher := .idle } := by
  have contiguous := inv.contiguous
  have held := inv.held
  rw [flushed] at contiguous held
  exact { inv with
    contiguous := contiguous
    durable_le := inv.flushed_le durable flushed
    flushed_le := nofun
    held := held }

theorem Inv.failed {error : String} (flushed : s.flusher = .flushed (.error error)) :
    Inv { s with lastError := some error, flusher := .idle } := by
  have contiguous := inv.contiguous
  have held := inv.held
  rw [flushed] at contiguous held
  exact { inv with
    contiguous := contiguous
    flushed_le := nofun
    held := held }

theorem Inv.truncated (sync : SyncResult) (length : Option Nat)
    (taken : s.step (.truncate [] sync length) = some t) : Inv t := by
  simp only [step] at taken
  split at taken
  · cases taken
  rename_i excluded
  obtain ⟨unleased, quiet⟩ := not_or.mp excluded
  have unbatched : s.flusher.batches = [] := by
    cases phase : s.flusher with
    | idle => rfl
    | woken => rfl
    | drained batches => simp [phase, FlusherPhase.leased] at unleased
    | flushed result => rfl
  have contiguous := inv.contiguous
  rw [unbatched] at contiguous
  have sorted : s.drainSorted = s.entries := contiguous.sorted.insertionSort_eq
  have placed : Contiguous { s with entries := [] }.currentLsn s.entries s.nextLsn := contiguous
  have order : s.flusher.batches ++ s.entries = s.entries ++ (s.flusher.batches ++ []) := by
    rw [unbatched, append_nil, nil_append, append_nil]
  have rest : Contiguous s.nextLsn (s.flusher.batches ++ []) s.nextLsn := by
    rw [unbatched]
    rfl
  obtain ⟨buffered, appended⟩ := appendEach_contiguous true placed
  have synced := (inv.appended _ buffered order contiguous rest inv.flushed_le).synced sync
  have calm (call target : Nat) : ¬ (s.calls call).awaits target := by
    intro awaits
    have early : call < s.started := by
      by_contra late
      rw [inv.fresh call (not_lt.mp late)] at awaits
      rcases awaits with impossible | impossible <;> cases impossible
    exact quiet ⟨call, early, by rcases awaits with phase | phase <;> rw [phase] <;> rfl⟩
  simp only [sorted, appended, if_true] at taken
  cases length with
  | none =>
    rw [← Option.some.inj taken]
    exact synced
  | some length =>
    rw [← Option.some.inj taken]
    have idle : ∀ durable, s.flusher ≠ .flushed (.ok durable) := by
      intro durable phase
      rw [phase] at unleased
      exact unleased rfl
    cases sync with
    | ok =>
      exact {
        contiguous := by
          change Contiguous length (s.flusher.batches ++ []) length
          rw [unbatched]
          rfl
        synced_le := le_rfl
        durable_le := le_rfl
        flushed_le := fun durable phase => absurd phase (idle durable)
        fresh := inv.fresh
        held := fun call target awaits => absurd awaits (calm call target)
        acknowledged := synced.acknowledged }
    | bufferFailed => exact synced
    | fsyncFailed => exact synced

end

theorem inv_step (op : CommitOp) (inv : Inv s) (taken : Guarded (Steps step) Admits s op t) : Inv t := by
  obtain ⟨admitted, taken⟩ := taken
  cases op with
  | append bytes =>
    simp only [Steps, step] at taken
    split_ifs at taken with nonempty
    rw [← Option.some.inj taken]
    exact inv.enqueue nonempty
  | register call =>
    simp only [Steps, step] at taken
    split at taken
    · rename_i target phase
      rw [← Option.some.inj taken]
      exact inv.observed (.inl phase) _
    · cases taken
  | wake call =>
    simp only [Steps, step] at taken
    split at taken
    · rename_i target phase
      rw [← Option.some.inj taken]
      exact inv.observed (.inr phase) _
    · cases taken
  | flusherWake =>
    simp only [Steps, step] at taken
    split at taken
    · rename_i phase
      split_ifs at taken
      have contiguous := inv.contiguous
      have held := inv.held
      rw [phase] at contiguous held
      rw [← Option.some.inj taken]
      exact { inv with
        contiguous := contiguous
        flushed_le := nofun
        held := held }
    · cases taken
  | drain =>
    simp only [Steps, step] at taken
    split at taken
    · rename_i phase
      rw [← Option.some.inj taken]
      exact inv.drained phase
    · cases taken
  | flush faults sync error =>
    obtain rfl : faults = [] := admitted
    cases phase : s.flusher with
    | drained batches => exact inv.flushed phase sync error taken
    | _ => simp [Steps, step, phase] at taken
  | publish =>
    simp only [Steps, step] at taken
    split at taken
    · rename_i phase
      rw [← Option.some.inj taken]
      exact inv.published phase
    · rename_i phase
      rw [← Option.some.inj taken]
      exact inv.failed phase
    · cases taken
  | truncate faults sync length =>
    obtain rfl : faults = [] := admitted
    exact inv.truncated sync length taken

/-- As long as no append to the WAL file fails, whatever syncs fail, a call returns Ok only after a
successful sync covered its bytes. -/
theorem acknowledged_only_synced (lsn : Nat) {ops : List CommitOp}
    (run : Run (Guarded (Steps step) Admits) (start lsn) ops s) : s.Acknowledged := by
  have preserved (before : Coordinator) (op : CommitOp) (after : Coordinator) (inv : Inv before)
      (taken : Guarded (Steps step) Admits before op after) : Inv after := inv_step op inv taken
  exact (run.invariant preserved (inv_start lsn)).acknowledged

/-- Two calls whose first sync fails; the second call returns Ok after the retry. -/
theorem acknowledged_only_synced_retry : ∃ s, Run (Guarded (Steps step) Admits) (start 8)
        [.append [1, 2], .register 0, .flusherWake, .drain, .flush [] .fsyncFailed "sync", .publish, .wake 0,
          .append [3], .flusherWake, .drain, .flush [] .ok "", .publish, .register 1] s ∧
      s.calls 0 = .returned false ∧ s.calls 1 = .returned true ∧ s.Acknowledged := by
  obtain ⟨s, run, observed⟩ := execute_reaches step Admits (start 8)
    [.append [1, 2], .register 0, .flusherWake, .drain, .flush [] .fsyncFailed "sync", .publish, .wake 0,
      .append [3], .flusherWake, .drain, .flush [] .ok "", .publish, .register 1]
    (fun s => decide (s.calls 0 = .returned false ∧ s.calls 1 = .returned true)) (by decide)
  obtain ⟨first, second⟩ := of_decide_eq_true observed
  exact ⟨s, run, first, second, acknowledged_only_synced 8 run⟩

def longBlob : Bytes := List.replicate walBufferBytes 0

/-- The write of call 0's blob, too long for the buffer, fails and the blob is dropped. Before call 0 looks,
the flusher writes the blob of call 1, clears the error and raises the durable position to the target of
call 0. -/
theorem dropped_blob_acknowledged : ∃ s, Run (Steps step) (start 8)
        [.append longBlob, .register 0, .flusherWake, .drain, .flush [some .blob] .ok "append", .publish,
          .append longBlob, .flusherWake, .drain, .flush [] .ok "", .publish, .wake 0] s ∧
      s.calls 0 = .returned true ∧ s.covered = [1] ∧ s.written = [] := by
  have long : longBlob.length = walBufferBytes := length_replicate
  have nonempty : longBlob ≠ [] := ne_nil_of_length_pos (by rw [long]; decide)
  generalize longBlob = bytes at long nonempty ⊢
  unfold walBufferBytes at long
  obtain ⟨s, run, observed⟩ := execute_reaches step (fun _ _ => True) (start 8)
    [.append bytes, .register 0, .flusherWake, .drain, .flush [some .blob] .ok "append", .publish,
      .append bytes, .flusherWake, .drain, .flush [] .ok "", .publish, .wake 0]
    (fun s => decide (s.calls 0 = .returned true ∧ s.covered = [1] ∧ s.written = []))
    (by simp [execute, step, nonempty, enqueue, start, observe, drainSorted, appendEach, writeAll, walBufferBytes, long,
      syncWal])
  exact ⟨s, run.mono fun _ _ _ => And.right, of_decide_eq_true observed⟩

theorem waiters_kept (lsn : Nat) {ops : List CommitOp} (run : Run (Guarded (Steps step) Admits) (start lsn) ops s) :
    Contiguous s.currentLsn (s.flusher.batches ++ s.entries) s.nextLsn ∧ s.durableLsn ≤ s.currentLsn ∧
      ∀ call target, (s.calls call).awaits target →
        (∃ blob ∈ s.flusher.batches ++ s.entries, blob.call = call ∧ blob.target = target) ∨
          call ∈ s.covered ∨ call ∈ s.written ∧ s.walDurable < target := by
  have inv := run.invariant (fun _ _ _ inv t => inv_step _ inv t) (inv_start lsn)
  exact ⟨inv.contiguous, inv.durable_le.trans inv.synced_le, inv.held⟩

/-- The bytes of call 0 are with the writer after a failed sync, those of call 1 in the flusher's hands. -/
theorem waiters_kept_drained : ∃ s, Run (Guarded (Steps step) Admits) (start 8)
        [.append [1, 2], .register 0, .flusherWake, .drain, .flush [] .fsyncFailed "sync", .publish,
          .append [3], .flusherWake, .drain] s ∧
      s.calls 0 = .waiting 10 ∧ s.flusher.batches = [⟨10, 1, [3]⟩] ∧
      Contiguous s.currentLsn (s.flusher.batches ++ s.entries) s.nextLsn ∧ s.durableLsn ≤ s.currentLsn ∧
      ∀ call target, (s.calls call).awaits target →
        (∃ blob ∈ s.flusher.batches ++ s.entries, blob.call = call ∧ blob.target = target) ∨
          call ∈ s.covered ∨ call ∈ s.written ∧ s.walDurable < target := by
  obtain ⟨s, run, observed⟩ := execute_reaches step Admits (start 8)
    [.append [1, 2], .register 0, .flusherWake, .drain, .flush [] .fsyncFailed "sync", .publish,
      .append [3], .flusherWake, .drain]
    (fun s => decide (s.calls 0 = .waiting 10 ∧ s.flusher.batches = [⟨10, 1, [3]⟩])) (by decide)
  obtain ⟨waiting, drained⟩ := of_decide_eq_true observed
  exact ⟨s, run, waiting, drained, waiters_kept 8 run⟩

end Coordinator

end RedDB.Wal
