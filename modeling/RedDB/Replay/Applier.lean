import RedDB.Library.LittleEndian

namespace RedDB.Replay

open Library

abbrev Bytes := List UInt8

def defaultReplicationTerm : Nat := 1

inductive ChangeOperation
  | insert
  | update
  | delete
  | refresh
  deriving DecidableEq, Repr

/-- `operation as u8` -/
def ChangeOperation.toByte : ChangeOperation → UInt8
  | .insert => 0
  | .update => 1
  | .delete => 2
  | .refresh => 3

structure ChangeRecord where
  term : Nat
  lsn : Nat
  timestamp : Nat
  operation : ChangeOperation
  collection : String
  entityId : Nat
  entityKind : String
  entityBytes : Option Bytes
  metadata : Option String
  refreshRecords : Option (List Bytes)
  rangeId : Option Nat
  ownershipEpoch : Option Nat
  deriving DecidableEq, Repr

inductive RangeAdmitError
  | staleTerm (recordTerm acceptedTerm : Nat)
  | staleOwnershipEpoch (recordEpoch acceptedEpoch : Nat)
  deriving DecidableEq, Repr

structure RangeAuthority where
  rangeId : Nat
  minTerm : Nat
  minOwnershipEpoch : Nat
  deriving DecidableEq, Repr

def RangeAuthority.admit (self : RangeAuthority) (record : ChangeRecord) : Except RangeAdmitError Unit :=
  if record.rangeId ≠ some self.rangeId then .ok ()
  else if record.term < self.minTerm then .error (.staleTerm record.term self.minTerm)
  else match record.ownershipEpoch with
    | some epoch =>
      if epoch < self.minOwnershipEpoch then
        .error (.staleOwnershipEpoch epoch self.minOwnershipEpoch)
      else .ok ()
    | none => .ok ()

inductive FenceBoundary
  | apply
  | handshake
  | lease
  deriving DecidableEq, Repr

structure StaleTermFenced where
  boundary : FenceBoundary
  incomingTerm : Nat
  currentTerm : Nat
  deriving DecidableEq, Repr

inductive FenceVerdict
  | admits (term : Nat)
  | adopt (newTerm : Nat)
  | fenced (rejection : StaleTermFenced)
  deriving DecidableEq, Repr

def termIsStale (incomingTerm currentTerm : Nat) : Bool := incomingTerm < currentTerm

structure TermFence where
  store : Nat
  deriving DecidableEq, Repr

section

variable (self : TermFence)

variable (boundary : FenceBoundary)

def TermFence.classify (incomingTerm : Nat) : FenceVerdict :=
  if termIsStale incomingTerm self.store then .fenced ⟨boundary, incomingTerm, self.store⟩
  else if self.store < incomingTerm then .adopt incomingTerm
  else .admits self.store

def TermFence.admit (incomingTerm : Nat) : FenceVerdict × TermFence :=
  match self.classify boundary incomingTerm with
  | .adopt newTerm => (.adopt newTerm, ⟨newTerm⟩)
  | verdict => (verdict, self)

def TermFence.admitRecord (incomingTerm : Nat) : FenceVerdict × TermFence :=
  self.admit .apply incomingTerm

end

def ChangeRecord.hashedBytes (record : ChangeRecord) : Bytes :=
  toLeBytes 8 record.term ++ toLeBytes 8 record.lsn ++ [record.operation.toByte] ++
    record.collection.toUTF8.data.toList ++ toLeBytes 8 record.entityId ++
    toLeBytes 8 (record.rangeId.getD (2 ^ 64 - 1)) ++
    toLeBytes 8 (record.ownershipEpoch.getD (2 ^ 64 - 1)) ++
    (match record.entityBytes with
      | some bytes => bytes
      | none => []) ++
    (match record.refreshRecords with
      | some records =>
        toLeBytes 8 records.length ++ records.flatMap fun r => toLeBytes 8 r.length ++ r
      | none => [])

def recordPayloadHash (sha256 : Bytes → Bytes) (record : ChangeRecord) : Bytes := sha256 record.hashedBytes

def hexDigit (n : Nat) : Char := ("0123456789abcdef".toList.getD n '0')

def hexDigest (bytes : Bytes) : String :=
  String.ofList (bytes.flatMap fun b => [hexDigit (b.toNat / 16), hexDigit (b.toNat % 16)])

inductive ApplyOutcome
  | applied
  | idempotent
  | skipped
  deriving DecidableEq, Repr

inductive LogicalApplyError (E : Type)
  | gap (last next : Nat)
  | divergence (expectedTerm gotTerm lsn : Nat) (expected got : String)
  | apply (lsn : Nat) (source : E)
  | staleTermFenced (recordTerm currentTerm lsn : Nat)
  | rangeFenced (rangeId lsn : Nat) (reason : RangeAdmitError)
  deriving DecidableEq, Repr

structure LogicalChangeApplier where
  lastAppliedTerm : Nat
  termFence : TermFence
  lastAppliedLsn : Nat
  receivedFrontierLsn : Nat
  lastPayloadHash : Option Bytes
  deriving DecidableEq, Repr

namespace LogicalChangeApplier

def new (startingLsn : Nat) : LogicalChangeApplier where
  lastAppliedTerm := defaultReplicationTerm
  termFence := ⟨defaultReplicationTerm⟩
  lastAppliedLsn := startingLsn
  receivedFrontierLsn := startingLsn
  lastPayloadHash := none

def publishApplied (self : LogicalChangeApplier) (record : ChangeRecord) (payloadHash : Bytes) :
    LogicalChangeApplier :=
  { self with
    lastAppliedTerm := record.term
    lastAppliedLsn := record.lsn
    lastPayloadHash := some payloadHash }

variable {E : Type} (sha256 : Bytes → Bytes)

section

variable (self : LogicalChangeApplier)

variable (record : ChangeRecord)

/-- Writing the record to the store and publishing it; the store's answer is `attempt`. -/
def applyAndPublish (attempt : Except E Unit) :
    Except (LogicalApplyError E) ApplyOutcome × LogicalChangeApplier :=
  match attempt with
  | .error source => (.error (.apply record.lsn source), self)
  | .ok () => (.ok .applied, self.publishApplied record (recordPayloadHash sha256 record))

/-- The position checks of `apply_fenced`, for a record both fences let through. -/
def applyAdmitted (attempt : Except E Unit) :
    Except (LogicalApplyError E) ApplyOutcome × LogicalChangeApplier :=
  if self.lastAppliedLsn = 0 ∧ 0 < record.lsn then self.applyAndPublish sha256 record attempt
  else if record.lsn = self.lastAppliedLsn then
    match self.lastPayloadHash with
    | some p =>
      if p = recordPayloadHash sha256 record then (.ok .idempotent, self)
      else (.error (.divergence self.lastAppliedTerm record.term record.lsn (hexDigest p)
        (hexDigest (recordPayloadHash sha256 record))), self)
    | none => (.ok .idempotent, self)
  else if record.lsn < self.lastAppliedLsn then (.ok .skipped, self)
  else if self.lastAppliedLsn + 1 < record.lsn then
    (.error (.gap self.lastAppliedLsn record.lsn), self)
  else self.applyAndPublish sha256 record attempt

def receive (fence : TermFence) (record : ChangeRecord) :
    LogicalChangeApplier :=
  { self with
    termFence := fence
    receivedFrontierLsn := max self.receivedFrontierLsn record.lsn }

def applyUnfencedRange (attempt : Except E Unit) :
    Except (LogicalApplyError E) ApplyOutcome × LogicalChangeApplier :=
  match self.termFence.admitRecord record.term with
  | (.fenced rejection, _) =>
    (.error (.staleTermFenced rejection.incomingTerm rejection.currentTerm record.lsn), self)
  | (_, fence) => (self.receive fence record).applyAdmitted sha256 record attempt

def applyFenced (attempt : Except E Unit)
    (rangeFence : Option RangeAuthority) :
    Except (LogicalApplyError E) ApplyOutcome × LogicalChangeApplier :=
  match rangeFence with
  | some fence =>
    match fence.admit record with
    | .error reason => (.error (.rangeFenced fence.rangeId record.lsn reason), self)
    | .ok () => self.applyUnfencedRange sha256 record attempt
  | none => self.applyUnfencedRange sha256 record attempt

def apply (attempt : Except E Unit) :
    Except (LogicalApplyError E) ApplyOutcome × LogicalChangeApplier :=
  self.applyFenced sha256 record attempt none

def Accepts (lsn : Nat) : Prop :=
  self.lastAppliedLsn = 0 ∧ 0 < lsn ∨ lsn = self.lastAppliedLsn + 1

end

instance (self : LogicalChangeApplier) (lsn : Nat) : Decidable (self.Accepts lsn) :=
  inferInstanceAs (Decidable (_ ∨ _))

variable {sha256} {self : LogicalChangeApplier} {record : ChangeRecord} {attempt : Except E Unit}

theorem applyAdmitted_accepted (accepted : self.Accepts record.lsn) :
    self.applyAdmitted sha256 record attempt = self.applyAndPublish sha256 record attempt := by
  rcases accepted with anchor | next
  · rw [applyAdmitted, if_pos anchor]
  · unfold applyAdmitted
    split
    · rfl
    · rw [if_neg (by omega), if_neg (by omega), if_neg (by omega)]

theorem applyAdmitted_refused (refused : ¬self.Accepts record.lsn) :
    ∃ result, self.applyAdmitted sha256 record attempt = (result, self) ∧ result ≠ .ok .applied := by
  have notAnchor : ¬(self.lastAppliedLsn = 0 ∧ 0 < record.lsn) := fun anchor => refused (.inl anchor)
  have notNext : record.lsn ≠ self.lastAppliedLsn + 1 := fun next => refused (.inr next)
  unfold applyAdmitted
  rw [if_neg notAnchor]
  split
  · split
    · split
      · exact ⟨_, rfl, nofun⟩
      · exact ⟨_, rfl, nofun⟩
    · exact ⟨_, rfl, nofun⟩
  · split
    · exact ⟨_, rfl, nofun⟩
    · rw [if_pos (by omega)]
      exact ⟨_, rfl, nofun⟩

theorem applyAdmitted_diverges {prior : Bytes} (applied : 0 < self.lastAppliedLsn)
    (same : record.lsn = self.lastAppliedLsn) (known : self.lastPayloadHash = some prior)
    (differs : prior ≠ recordPayloadHash sha256 record) :
    ∃ failure, (self.applyAdmitted sha256 record attempt).1 = .error failure := by
  unfold applyAdmitted
  rw [if_neg (by omega), if_pos same, known]
  simp only [if_neg differs]
  exact ⟨_, rfl⟩

theorem apply_stale (stale : record.term < self.termFence.store) : self.apply sha256 record attempt =
      (.error (.staleTermFenced record.term self.termFence.store record.lsn), self) := by
  simp [apply, applyFenced, applyUnfencedRange, TermFence.admitRecord, TermFence.admit,
    TermFence.classify, termIsStale, stale]

theorem apply_current (current : self.termFence.store ≤ record.term) : self.apply sha256 record attempt =
      (self.receive ⟨record.term⟩ record).applyAdmitted sha256 record attempt := by
  rcases current.lt_or_eq with newer | live
  · simp [apply, applyFenced, applyUnfencedRange, TermFence.admitRecord, TermFence.admit,
      TermFence.classify, termIsStale, newer, newer.not_gt]
  · have fence : self.termFence = ⟨record.term⟩ := by rw [← live]
    simp [apply, applyFenced, applyUnfencedRange, TermFence.admitRecord, TermFence.admit,
      TermFence.classify, termIsStale, fence]

theorem apply_cases (sha256 : Bytes → Bytes) (self : LogicalChangeApplier) (record : ChangeRecord)
    (attempt : Except E Unit) :
    (record.term < self.termFence.store ∧ ∃ failure, self.apply sha256 record attempt = (.error failure, self)) ∨
    (self.termFence.store ≤ record.term ∧ self.Accepts record.lsn ∧ attempt = .ok () ∧
      self.apply sha256 record attempt = (.ok .applied, (self.receive ⟨record.term⟩ record).publishApplied
        record (recordPayloadHash sha256 record))) ∨
    (self.termFence.store ≤ record.term ∧ (self.Accepts record.lsn → attempt ≠ .ok ()) ∧
      ∃ result, result ≠ .ok .applied ∧
        self.apply sha256 record attempt = (result, self.receive ⟨record.term⟩ record)) := by
  rcases lt_or_ge record.term self.termFence.store with stale | current
  · exact .inl ⟨stale, _, apply_stale stale⟩
  · right
    rw [apply_current current]
    by_cases accepted : self.Accepts record.lsn
    · have receivedAccepts : (self.receive ⟨record.term⟩ record).Accepts record.lsn := accepted
      rw [applyAdmitted_accepted receivedAccepts]
      cases attempt with
      | ok _ => exact .inl ⟨current, accepted, rfl, rfl⟩
      | error source =>
        exact .inr ⟨current, fun _ => nofun, .error (.apply record.lsn source), nofun, rfl⟩
    · have receivedRefuses : ¬(self.receive ⟨record.term⟩ record).Accepts record.lsn := accepted
      obtain ⟨result, eq, notApplied⟩ := applyAdmitted_refused receivedRefuses
      exact .inr ⟨current, fun holds => absurd holds accepted, result, notApplied, eq⟩

end LogicalChangeApplier

end RedDB.Replay
