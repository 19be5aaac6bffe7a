import RedDB.Library.BinarySearch
import RedDB.Library.Runs
import RedDB.Replication.LogicalWal

namespace RedDB.Replication

open Library

/-- A change record: its authority, and everything else as `ρ`. -/
structure ChangeRecord (ρ : Type) where
  term : UInt64
  ownershipEpoch : Option UInt64
  change : ρ

structure External (ρ : Type) where
  crc32 : Bytes → UInt32
  decodeChange : Bytes → Option (ChangeRecord ρ)
  encodeChange : ChangeRecord ρ → Bytes

def defaultReplicationTerm : UInt64 := 1

section

variable {ρ : Type} (ext : External ρ)

variable (entry : LogicalWalEntry) (payload : Bytes)

def termFromPayload : UInt64 := ((ext.decodeChange payload).map (·.term)).getD defaultReplicationTerm

def logicalWalEntryTerm : UInt64 :=
  if entry.term = 0 then termFromPayload ext entry.data else entry.term

def logicalWalDataWithFramingTerm : Bytes :=
  match ext.decodeChange entry.data with
  | some record =>
    if record.term ≠ logicalWalEntryTerm ext entry ∨ record.ownershipEpoch ≠ entry.ownershipEpoch then
      ext.encodeChange { record with
        term := logicalWalEntryTerm ext entry
        ownershipEpoch := if entry.ownershipEpoch.isSome then entry.ownershipEpoch else record.ownershipEpoch }
    else entry.data
  | none => entry.data

end

structure LogicalWalSpoolState where
  currentLsn : UInt64
  seekIndex : List (UInt64 × Nat)
  writeOffset : Nat
  recordCount : Nat
  deriving DecidableEq, Repr

namespace LogicalWalSpoolState

section

variable (state : LogicalWalSpoolState)

def noteRecord (ordinal : Nat) (lsn : UInt64) (offset : Nat) : LogicalWalSpoolState :=
  { state with seekIndex := pushCheckpoint state.seekIndex ordinal lsn offset }

def checkpointOffset (index : Nat) : Nat := (state.seekIndex[index]?.map Prod.snd).getD 0

def seekFloorOffset (sinceLsn : UInt64) : Nat :=
  match binarySearch (fun checkpoint => compare checkpoint.1.toNat sinceLsn.toNat) state.seekIndex with
  | .found index => state.checkpointOffset index
  | .notFound 0 => 0
  | .notFound (index + 1) => state.checkpointOffset index

end

end LogicalWalSpoolState

/-- The arguments of `append_with_term_epoch_and_timestamp`, which the other appends call. -/
structure SpoolAppend where
  term : UInt64
  ownershipEpoch : Option UInt64
  lsn : UInt64
  timestampMs : UInt64
  data : Bytes
  deriving DecidableEq, Repr

section

variable {ρ : Type} (ext : External ρ)

def SpoolAppend.frame (a : SpoolAppend) : Except Wal.IoError Bytes :=
  encodeLogicalWalV3 ext.crc32 a.term a.ownershipEpoch a.lsn a.timestampMs a.data

variable (state : LogicalWalSpoolState) (file : Bytes)

/-- `LogicalWalSpool::open` with the file it leaves. -/
def openSpool : LogicalWalSpoolState × Bytes :=
  let (entries, file) := readAndRepairLogicalWalEntries ext.crc32 file
  let built := buildLogicalWalSeekIndex ext.crc32 file
  ({ currentLsn := (entries.getLast?.map (·.lsn)).getD 0, seekIndex := built.index, writeOffset := built.writeOffset,
     recordCount := built.ordinal }, file)

/-- The state of the spool after `frame` has been written and synced. -/
def afterAppend (lsn : UInt64) (frame : Bytes) : LogicalWalSpoolState :=
  let state := { state with currentLsn := max state.currentLsn lsn }
  let recordStart := state.writeOffset
  let ordinal := state.recordCount
  let state := state.noteRecord ordinal lsn recordStart
  { state with writeOffset := recordStart + frame.length, recordCount := ordinal + 1 }

def readSince (state : LogicalWalSpoolState) (sinceLsn : UInt64) (maxCount : Nat) :
    List (UInt64 × Bytes) :=
  let entries := readLogicalWalEntriesFrom ext.crc32 file (state.seekFloorOffset sinceLsn)
  ((entries.filter fun entry => entry.lsn > sinceLsn).take maxCount).map fun entry =>
    (entry.lsn, logicalWalDataWithFramingTerm ext entry)

/-- The entries that a prune keeps, as it writes them; `now` is the wall clock. -/
def retain (entries : List LogicalWalEntry) (uptoLsn now : UInt64) : List LogicalWalEntry :=
  (entries.filter fun entry => entry.lsn > uptoLsn).map fun entry =>
    { entry with
      term := logicalWalEntryTerm ext entry
      timestampMs := if entry.timestampMs > 0 then entry.timestampMs else now }

/-- The file that `prune_through` starts from, and the one it renames into its place. -/
def pruneFiles (uptoLsn now : UInt64) : Bytes × Except Wal.IoError (Bytes × UInt64) :=
  let (entries, file) := readAndRepairLogicalWalEntries ext.crc32 file
  (file, rewriteLogicalWalEntries ext.crc32 (retain ext entries uptoLsn now))

def afterPrune (uptoLsn rewritten : UInt64) (file : Bytes) : LogicalWalSpoolState :=
  let built := buildLogicalWalSeekIndex ext.crc32 file
  { currentLsn := max (max state.currentLsn rewritten) uptoLsn
    seekIndex := built.index, writeOffset := built.writeOffset, recordCount := built.ordinal }

end

/-- A spool file with the spool that has it open. `appended` are the records whose append returned and that were
    not pruned, `lastLsn` is the sequence number of the last append that returned. -/
structure SpoolStore where
  file : Bytes
  spool : Option LogicalWalSpoolState
  appended : List SpoolAppend
  lastLsn : Option UInt64

inductive SpoolEvent
  | reopen
  | append (a : SpoolAppend)
  | prune (uptoLsn now : UInt64)
  | crash
  | crashAppend (a : SpoolAppend) (cut : Nat)
  | crashPrune (uptoLsn now : UInt64) (renamed : Bool)

namespace SpoolStore

variable {ρ : Type} (ext : External ρ)

def init : SpoolStore := ⟨[], none, [], none⟩

def pruned (s : SpoolStore) (uptoLsn : UInt64) : List SpoolAppend := s.appended.filter fun a => a.lsn > uptoLsn

def step (s : SpoolStore) : SpoolEvent → Option SpoolStore
  | .reopen =>
    match s.spool with
    | some _ => none
    | none =>
      let (state, file) := openSpool ext s.file
      some { s with file, spool := some state }
  | .append a =>
    match s.spool with
    | none => none
    | some state =>
      match a.frame ext with
      | .error _ => some s
      | .ok frame =>
        some { file := s.file ++ frame, spool := some (afterAppend state a.lsn frame), appended := s.appended ++ [a],
               lastLsn := some a.lsn }
  | .prune uptoLsn now =>
    match s.spool with
    | none => none
    | some state =>
      match pruneFiles ext s.file uptoLsn now with
      | (file, .error _) => some { s with file }
      | (_, .ok (file, rewritten)) =>
        some { s with file, spool := some (afterPrune ext state uptoLsn rewritten file), appended := s.pruned uptoLsn }
  | .crash => some { s with spool := none }
  | .crashAppend a cut =>
    match s.spool, a.frame ext with
    | some _, .ok frame => some { s with file := s.file ++ frame.take cut, spool := none }
    | _, _ => none
  | .crashPrune uptoLsn now renamed =>
    match s.spool with
    | none => none
    | some _ =>
      match pruneFiles ext s.file uptoLsn now, renamed with
      | (_, .ok (file, _)), true => some { s with file, spool := none, appended := s.pruned uptoLsn }
      | (file, _), _ => some { s with file, spool := none }

end SpoolStore

end RedDB.Replication
