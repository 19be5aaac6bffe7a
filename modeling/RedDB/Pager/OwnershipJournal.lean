import RedDB.Library.Chunks
import RedDB.Pager.Superblock

namespace RedDB.Pager

open Library

/-- `RDOJ` -/
def journalMagic : Bytes := [0x52, 0x44, 0x4f, 0x4a]

def journalVersion : UInt8 := 1

def recordSize : Nat := 32

inductive PageOwnershipRecord
  | begin (epoch : Nat)
  | reserve (epoch pageId : Nat)
  | retire (epoch pageId : Nat)
  | detachFree (epoch pageId : Nat)
  | finish (epoch : Nat)
  deriving DecidableEq, Repr

inductive OwnershipJournalError
  | invalidInput (message : String)
  | invalidData (message : String)
  deriving DecidableEq, Repr

namespace PageOwnershipRecord

def fields : PageOwnershipRecord → UInt8 × Nat × Nat
  | .begin epoch => (1, epoch, 0)
  | .reserve epoch pageId => (2, epoch, pageId)
  | .retire epoch pageId => (3, epoch, pageId)
  | .finish epoch => (4, epoch, 0)
  | .detachFree epoch pageId => (5, epoch, pageId)

variable (record : PageOwnershipRecord)

def epoch : Nat := record.fields.2.1

def body : Bytes :=
  let (kind, epoch, pageId) := record.fields
  journalMagic ++ ([journalVersion] ++ ([kind] ++ ([0, 0] ++ (toLeBytes 8 epoch ++
    (toLeBytes 4 pageId ++ List.replicate 8 0)))))

def frame (crc32 : Bytes → UInt32) : Bytes := record.body ++ toLeBytes 4 (crc32 record.body).toNat

end PageOwnershipRecord

def invalidRecord : OwnershipJournalError := .invalidData "invalid ownership record"

def recordOf (kind : Bytes) (epoch pageId : Nat) : Except OwnershipJournalError PageOwnershipRecord :=
  if kind = [1] ∧ pageId = 0 then .ok (.begin epoch)
  else if kind = [2] ∧ 1 ≤ pageId then .ok (.reserve epoch pageId)
  else if kind = [3] ∧ 1 ≤ pageId then .ok (.retire epoch pageId)
  else if kind = [4] ∧ pageId = 0 then .ok (.finish epoch)
  else if kind = [5] ∧ 1 ≤ pageId then .ok (.detachFree epoch pageId)
  else .error invalidRecord

def decodeRecord (crc32 : Bytes → UInt32) (bytes : Bytes) : Except OwnershipJournalError PageOwnershipRecord :=
  if bytes.length ≠ recordSize then .error (.invalidData "incomplete ownership record")
  else if slice bytes 0 4 ≠ journalMagic ∨ slice bytes 4 1 ≠ [journalVersion] ∨ slice bytes 6 2 ≠ [0, 0] ∨
      slice bytes 20 8 ≠ List.replicate 8 0 then .error invalidRecord
  else if (crc32 (bytes.take 28)).toNat ≠ fromLeBytes (slice bytes 28 4) then .error invalidRecord
  else if fromLeBytes (slice bytes 8 8) = 0 then .error invalidRecord
  else recordOf (slice bytes 5 1) (fromLeBytes (slice bytes 8 8)) (fromLeBytes (slice bytes 16 4))

structure PendingOwnershipEpoch where
  epoch : Nat
  reservedPages : Finset Nat
  retiredPages : Finset Nat
  detachedFreePages : Finset Nat
  deriving DecidableEq

structure JournalState where
  pending : Option PendingOwnershipEpoch
  lastEpoch : Nat
  deriving DecidableEq

def invalidSequence : OwnershipJournalError := .invalidData "invalid ownership sequence"

namespace JournalState

def initial : JournalState := ⟨none, 0⟩

variable (state : JournalState)

def amend (epoch : Nat) (change : PendingOwnershipEpoch → PendingOwnershipEpoch) :
    Except OwnershipJournalError JournalState :=
  match state.pending with
  | some current =>
    if current.epoch = epoch then .ok { state with pending := some (change current) } else .error invalidSequence
  | none => .error invalidSequence

def step : PageOwnershipRecord → Except OwnershipJournalError JournalState
  | .begin epoch =>
    if state.pending.isSome ∨ epoch ≤ state.lastEpoch then .error invalidSequence
    else .ok { state with pending := some ⟨epoch, ∅, ∅, ∅⟩ }
  | .reserve epoch pageId =>
    state.amend epoch fun current => { current with reservedPages := insert pageId current.reservedPages }
  | .retire epoch pageId =>
    state.amend epoch fun current => { current with retiredPages := insert pageId current.retiredPages }
  | .detachFree epoch pageId =>
    state.amend epoch fun current => { current with detachedFreePages := insert pageId current.detachedFreePages }
  | .finish epoch =>
    match state.pending with
    | some current => if current.epoch ≠ epoch then .error invalidSequence else .ok ⟨none, epoch⟩
    | none => .error invalidSequence

def scan (crc32 : Bytes → UInt32) (state : JournalState) : List Bytes → Except OwnershipJournalError JournalState
  | [] => .ok state
  | frame :: rest =>
    match decodeRecord crc32 frame with
    | .error e => .error e
    | .ok record =>
      match state.step record with
      | .error e => .error e
      | .ok next => next.scan crc32 rest

end JournalState

def pendingEpoch (crc32 : Bytes → UInt32) (bytes : Bytes) :
    Except OwnershipJournalError (Option PendingOwnershipEpoch) :=
  if bytes.length % recordSize ≠ 0 then .error (.invalidData "incomplete ownership journal")
  else
    match JournalState.initial.scan crc32 (chunks recordSize bytes) with
    | .error e => .error e
    | .ok state => .ok state.pending

structure OwnershipRecoveryPlan where
  release : List Nat
  preserve : List Nat
  deriving DecidableEq, Repr

def invalidRecovery : OwnershipJournalError := .invalidData "invalid ownership recovery state"

structure PageSets where
  release : Finset Nat
  preserve : Finset Nat
  deriving DecidableEq

section

variable (published : Bool) (firstAllocatable pageCount : Nat) (retired : Finset Nat)

def planReserved : List Nat → PageSets → Except OwnershipJournalError PageSets
  | [], sets => .ok sets
  | page :: rest, sets =>
    if page < firstAllocatable then .error invalidRecovery
    else if pageCount ≤ page then if published then .error invalidRecovery else planReserved rest sets
    else if published then
      if page ∈ retired then .error invalidRecovery
      else planReserved rest { sets with preserve := insert page sets.preserve }
    else planReserved rest { sets with release := insert page sets.release }

def planDetached : List Nat → PageSets → Except OwnershipJournalError PageSets
  | [], sets => .ok sets
  | page :: rest, sets =>
    if page < firstAllocatable ∨ pageCount ≤ page then .error invalidRecovery
    else if page ∈ sets.preserve then planDetached rest sets
    else planDetached rest { sets with release := insert page sets.release }

def planRetired : List Nat → PageSets → Except OwnershipJournalError PageSets
  | [], sets => .ok sets
  | page :: rest, sets =>
    if page < firstAllocatable ∨ pageCount ≤ page then .error invalidRecovery
    else if published then planRetired rest { sets with release := insert page sets.release }
    else planRetired rest sets

end

def ascending (pages : Finset Nat) : List Nat := pages.sort (· ≤ ·)

def recoveryPlan (pending : PendingOwnershipEpoch) (catalogEpoch firstAllocatable pageCount : Nat) :
    Except OwnershipJournalError OwnershipRecoveryPlan :=
  if pending.epoch = 0 ∨ pending.epoch < catalogEpoch ∨ pageCount < firstAllocatable then .error invalidRecovery
  else do
    let published := decide (catalogEpoch = pending.epoch)
    let sets ← planReserved published firstAllocatable pageCount pending.retiredPages
      (ascending pending.reservedPages) ⟨∅, ∅⟩
    let sets ← planDetached firstAllocatable pageCount (ascending pending.detachedFreePages) sets
    let sets ← planRetired published firstAllocatable pageCount (ascending pending.retiredPages) sets
    .ok ⟨ascending sets.release, ascending sets.preserve⟩

end RedDB.Pager
