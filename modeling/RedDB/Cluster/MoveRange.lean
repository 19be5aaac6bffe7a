import RedDB.Cluster.RangeStream
import RedDB.Cluster.WriteGate

namespace RedDB.Cluster

open Library Replay

structure CommitWatermark where
  term : Nat
  lsn : Nat
  deriving DecidableEq, Repr

structure CatchUpEvidence where
  candidate : NodeIdentity
  appliedTerm : Nat
  appliedLsn : Nat
  deriving DecidableEq, Repr

def CatchUpEvidence.covers (self : CatchUpEvidence) (watermark : CommitWatermark) : Bool :=
  watermark.term < self.appliedTerm ||
    (self.appliedTerm == watermark.term && watermark.lsn ≤ self.appliedLsn)

inductive TransitionKind
  | promote
  | handoff
  deriving DecidableEq, Repr

structure TransitionRequest where
  kind : TransitionKind
  collection : CollectionId
  rangeId : Nat
  expectedOwner : NodeIdentity
  expectedEpoch : Nat
  expectedVersion : Nat
  target : NodeIdentity
  watermark : CommitWatermark
  evidence : Option CatchUpEvidence
  newReplicas : List NodeIdentity
  deriving DecidableEq, Repr

inductive InvalidCandidateReason
  | notAReplica
  | archiveReplicaRequiresRestoreValidation
  | alreadyOwner
  deriving DecidableEq, Repr

inductive TransitionRejection
  | unknownRange (collection : CollectionId) (rangeId : Nat)
  | ownerMismatch (collection : CollectionId) (rangeId : Nat) (expected current : NodeIdentity)
  | staleEpoch (collection : CollectionId) (rangeId expected current : Nat)
  | staleCatalogVersion (collection : CollectionId) (rangeId expected current : Nat)
  | invalidCandidate (collection : CollectionId) (rangeId : Nat) (candidate : NodeIdentity)
    (reason : InvalidCandidateReason)
  | missingSafetyEvidence (collection : CollectionId) (rangeId : Nat) (candidate : NodeIdentity)
  | evidenceForWrongCandidate (collection : CollectionId) (rangeId : Nat) (target evidenceFor : NodeIdentity)
  | safetyCheckFailed (collection : CollectionId) (rangeId : Nat) (candidate : NodeIdentity)
    (watermark : CommitWatermark) (appliedTerm appliedLsn : Nat)
  deriving DecidableEq, Repr

inductive TransitionError
  | rejected (rejection : TransitionRejection)
  | catalog (error : CatalogError)
  deriving DecidableEq

def RangeOwnership.updateReplicas (self : RangeOwnership) (newReplicas : List NodeIdentity) :
    RangeOwnership :=
  { self with replicas := newReplicas, version := self.version + 1 }

structure TransitionOutcome where
  kind : TransitionKind
  collection : CollectionId
  rangeId : Nat
  previousOwner : NodeIdentity
  newOwner : NodeIdentity
  previousEpoch : Nat
  newEpoch : Nat
  previousVersion : Nat
  newVersion : Nat
  watermark : CommitWatermark
  deriving DecidableEq, Repr

structure PreparedTransition where
  kind : TransitionKind
  collection : CollectionId
  rangeId : Nat
  previousOwner : NodeIdentity
  newOwner : NodeIdentity
  previousEpoch : Nat
  previousVersion : Nat
  watermark : CommitWatermark
  next : RangeOwnership
  deriving DecidableEq

section

variable (current : RangeOwnership) (request : TransitionRequest)

def checkExpected : Except TransitionRejection Unit :=
  if current.owner ≠ request.expectedOwner then
    .error (.ownerMismatch request.collection request.rangeId request.expectedOwner current.owner)
  else if current.epoch ≠ request.expectedEpoch then
    .error (.staleEpoch request.collection request.rangeId request.expectedEpoch current.epoch)
  else if current.version ≠ request.expectedVersion then
    .error (.staleCatalogVersion request.collection request.rangeId request.expectedVersion current.version)
  else .ok ()

def checkCandidate : Except TransitionRejection Unit :=
  let invalid reason := TransitionRejection.invalidCandidate request.collection request.rangeId request.target reason
  match current.roleOf request.target with
  | .owner => .error (invalid .alreadyOwner)
  | .replica => .ok ()
  | .archiveReplica => .error (invalid .archiveReplicaRequiresRestoreValidation)
  | .noCopy => .error (invalid .notAReplica)

end

def checkEvidence (request : TransitionRequest) : Except TransitionRejection Unit :=
  match request.evidence with
  | none => .error (.missingSafetyEvidence request.collection request.rangeId request.target)
  | some evidence =>
    if evidence.candidate ≠ request.target then
      .error (.evidenceForWrongCandidate request.collection request.rangeId request.target evidence.candidate)
    else if evidence.covers request.watermark = false then
      .error (.safetyCheckFailed request.collection request.rangeId request.target request.watermark
        evidence.appliedTerm evidence.appliedLsn)
    else .ok ()

def prepare (catalog : ShardOwnershipCatalog) (request : TransitionRequest) :
    Except TransitionRejection PreparedTransition :=
  match catalog.range request.collection request.rangeId with
  | none => .error (.unknownRange request.collection request.rangeId)
  | some current => do
    checkExpected current request
    checkCandidate current request
    checkEvidence request
    .ok {
      kind := request.kind
      collection := request.collection
      rangeId := request.rangeId
      previousOwner := current.owner
      newOwner := request.target
      previousEpoch := current.epoch
      previousVersion := current.version
      watermark := request.watermark
      next := current.transferTo request.target request.newReplicas }

def PreparedTransition.outcome (self : PreparedTransition) : TransitionOutcome where
  kind := self.kind
  collection := self.collection
  rangeId := self.rangeId
  previousOwner := self.previousOwner
  newOwner := self.newOwner
  previousEpoch := self.previousEpoch
  newEpoch := self.next.epoch
  previousVersion := self.previousVersion
  newVersion := self.next.version
  watermark := self.watermark

section

variable (catalog : ShardOwnershipCatalog)

def ShardOwnershipCatalog.update (entry : RangeOwnership) :
    Except CatalogError UpdateOutcome × ShardOwnershipCatalog :=
  ShardOwnershipCatalog.applyUpdate entry catalog

def runTransition (request : TransitionRequest) : Except TransitionError TransitionOutcome × ShardOwnershipCatalog :=
  match prepare catalog request with
  | .error rejection => (.error (.rejected rejection), catalog)
  | .ok prepared =>
    match catalog.update prepared.next with
    | (.error error, after) => (.error (.catalog error), after)
    | (.ok _, after) => (.ok prepared.outcome, after)

end

inductive MovePhase
  | copyingSnapshot
  | catchingUp
  | completed
  | aborted
  deriving DecidableEq, Repr

def MovePhase.label : MovePhase → String
  | .copyingSnapshot => "copying-snapshot"
  | .catchingUp => "catching-up"
  | .completed => "completed"
  | .aborted => "aborted"

structure CollectionGroupPlacementAuthority where
  collectionGroup : CollectionGroupId
  authority : NodeIdentity
  collections : List CollectionId
  deriving DecidableEq, Repr

def CollectionGroupPlacementAuthority.covers (self : CollectionGroupPlacementAuthority)
    (collection : CollectionId) : Bool :=
  self.collections.contains collection

inductive MoveError
  | unknownRange (collection : CollectionId) (rangeId : Nat)
  | targetIsOwner (collection : CollectionId) (rangeId : Nat) (owner : NodeIdentity)
  | wrongPhase (expected : String) (actual : MovePhase)
  | targetBehindWatermark (collection : CollectionId) (rangeId : Nat) (target : NodeIdentity)
    (watermark : CommitWatermark) (appliedTerm appliedLsn : Nat)
  | missingPlacementAuthority (collection : CollectionId) (rangeId : Nat)
  | collectionOutsidePlacementAuthority (collection : CollectionId) (collectionGroup : CollectionGroupId)
    (authority : NodeIdentity)
  | wrongPlacementAuthority (collectionGroup : CollectionGroupId) (expected actual : NodeIdentity)
  | catalog (error : CatalogError)
  | transition (error : TransitionError)
  deriving DecidableEq

structure MoveRange where
  collection : CollectionId
  rangeId : Nat
  source : NodeIdentity
  target : NodeIdentity
  expectedEpoch : Nat
  expectedVersion : Nat
  phase : MovePhase
  snapshotWatermark : Option CommitWatermark
  position : Option RangeStreamPosition
  placementAuthority : Option CollectionGroupPlacementAuthority
  positioned : phase = .catchingUp → position.isSome = true
  deriving DecidableEq

def validatePlacementAuthority (collection : CollectionId)
    (placementAuthority : CollectionGroupPlacementAuthority) (caller : NodeIdentity) : Except MoveError Unit :=
  if placementAuthority.covers collection = false then
    .error (.collectionOutsidePlacementAuthority collection placementAuthority.collectionGroup
      placementAuthority.authority)
  else if placementAuthority.authority ≠ caller then
    .error (.wrongPlacementAuthority placementAuthority.collectionGroup placementAuthority.authority caller)
  else .ok ()

namespace MoveRange

/-- The move as `begin` builds it from the catalog's entry. -/
def capture (collection : CollectionId) (rangeId : Nat) (source target : NodeIdentity)
    (current : RangeOwnership) : MoveRange where
  collection := collection
  rangeId := rangeId
  source := source
  target := target
  expectedEpoch := current.epoch
  expectedVersion := current.version
  phase := .copyingSnapshot
  snapshotWatermark := none
  position := none
  placementAuthority := none
  positioned := nofun

def enlist (current : RangeOwnership) (target : NodeIdentity) : RangeOwnership :=
  current.updateReplicas (current.replicas ++ [target])

section

variable (catalog : ShardOwnershipCatalog) (collection : CollectionId) (rangeId : Nat) (target : NodeIdentity)

def begin : Except MoveError MoveRange × ShardOwnershipCatalog :=
  match catalog.range collection rangeId with
  | none => (.error (.unknownRange collection rangeId), catalog)
  | some current =>
    if target = current.owner then (.error (.targetIsOwner collection rangeId current.owner), catalog)
    else if target ∈ current.replicas then
      (.ok (capture collection rangeId current.owner target current), catalog)
    else
      match catalog.update (enlist current target) with
      | (.error error, after) => (.error (.catalog error), after)
      | (.ok _, after) =>
        (.ok (capture collection rangeId current.owner target (enlist current target)), after)

def beginAuthorized (placementAuthority : CollectionGroupPlacementAuthority) (caller : NodeIdentity) :
    Except MoveError MoveRange × ShardOwnershipCatalog :=
  match validatePlacementAuthority collection placementAuthority caller with
  | .error error => (.error error, catalog)
  | .ok () =>
    match begin catalog collection rangeId target with
    | (.error error, after) => (.error error, after)
    | (.ok movement, after) => (.ok { movement with placementAuthority := some placementAuthority }, after)

end

section

variable (self : MoveRange)

def wrongPhase (expected : MovePhase) : MoveError := .wrongPhase expected.label self.phase

def completeSnapshot (at_ : CommitWatermark) : Except MoveError MoveRange :=
  if self.phase = .copyingSnapshot then
    .ok { self with
      snapshotWatermark := some at_
      position := some ⟨self.rangeId, at_.lsn, at_.term, self.expectedEpoch⟩
      phase := .catchingUp
      positioned := fun _ => rfl }
  else .error (self.wrongPhase .copyingSnapshot)

def recordCatchUp (records : List ChangeRecord) : Except MoveError (RangeCatchupPlan × MoveRange) :=
  if catching : self.phase = .catchingUp then
    let plan := planRangeCatchup (self.position.get (self.positioned catching)) records
    .ok (plan, { self with position := some plan.resume, positioned := fun _ => rfl })
  else .error (self.wrongPhase .catchingUp)

def catchUpEvidence : Option CatchUpEvidence :=
  self.position.map fun position => ⟨self.target, position.acceptedTerm, position.appliedLsn⟩

end

theorem catchUpEvidence_isSome {self : MoveRange} (catching : self.phase = .catchingUp) :
    self.catchUpEvidence.isSome = true := by
  rw [catchUpEvidence, Option.isSome_map]
  exact self.positioned catching

end MoveRange

def attemptHandoff (catalog : ShardOwnershipCatalog) (collection : CollectionId) (rangeId : Nat)
    (source : NodeIdentity) (expectedEpoch expectedVersion : Nat) (target : NodeIdentity)
    (evidence : CatchUpEvidence) (watermark : CommitWatermark) :
    Except MoveError TransitionOutcome × ShardOwnershipCatalog :=
  let request : TransitionRequest := {
    kind := .handoff, collection, rangeId, expectedOwner := source, expectedEpoch, expectedVersion, target,
    watermark, evidence := some evidence, newReplicas := [source] }
  match runTransition catalog request with
  | (.error error, after) => (.error (.transition error), after)
  | (.ok outcome, after) => (.ok outcome, after)

namespace MoveRange

section

variable (self : MoveRange) (catalog : ShardOwnershipCatalog) (live : CommitWatermark)

def cutOver : Except MoveError TransitionOutcome × MoveRange × ShardOwnershipCatalog :=
  if catching : self.phase = .catchingUp then
    let evidence := self.catchUpEvidence.get (catchUpEvidence_isSome catching)
    if evidence.covers live = false then
      (.error (.targetBehindWatermark self.collection self.rangeId self.target live evidence.appliedTerm
        evidence.appliedLsn), self, catalog)
    else
      match attemptHandoff catalog self.collection self.rangeId self.source self.expectedEpoch
        self.expectedVersion self.target evidence live with
      | (.error error, after) => (.error error, self, after)
      | (.ok outcome, after) => (.ok outcome, { self with phase := .completed, positioned := nofun }, after)
  else (.error (self.wrongPhase .catchingUp), self, catalog)

def cutOverAuthorized
    (caller : NodeIdentity) : Except MoveError TransitionOutcome × MoveRange × ShardOwnershipCatalog :=
  match self.placementAuthority with
  | none => (.error (.missingPlacementAuthority self.collection self.rangeId), self, catalog)
  | some placementAuthority =>
    match validatePlacementAuthority self.collection placementAuthority caller with
    | .error error => (.error error, self, catalog)
    | .ok () => self.cutOver catalog live

end

def abort (self : MoveRange) : MoveRange := { self with phase := .aborted, positioned := nofun }

end MoveRange

inductive MoveRecovery
  | promoted (outcome : TransitionOutcome)
  | abortedSourceRetained (appliedTerm appliedLsn : Nat) (watermark : CommitWatermark)
  deriving DecidableEq, Repr

def recoverInterruptedMove (catalog : ShardOwnershipCatalog) (collection : CollectionId) (rangeId : Nat)
    (target : NodeIdentity) (targetPosition : RangeStreamPosition) (live : CommitWatermark) :
    Except MoveError MoveRecovery × ShardOwnershipCatalog :=
  match catalog.range collection rangeId with
  | none => (.error (.unknownRange collection rangeId), catalog)
  | some current =>
    let evidence : CatchUpEvidence := ⟨target, targetPosition.acceptedTerm, targetPosition.appliedLsn⟩
    if evidence.covers live = false then
      (.ok (.abortedSourceRetained evidence.appliedTerm evidence.appliedLsn live), catalog)
    else
      match attemptHandoff catalog collection rangeId current.owner current.epoch current.version target
        evidence live with
      | (.error error, after) => (.error error, after)
      | (.ok outcome, after) => (.ok (.promoted outcome), after)

theorem ShardOwnershipCatalog.update_cases (catalog : ShardOwnershipCatalog) (entry : RangeOwnership) :
    (∃ error, catalog.update entry = (.error error, catalog)) ∨
      ∃ outcome, catalog.update entry = (.ok outcome, store entry catalog) := by
  by_cases accepts : catalog.Accepts entry
  · exact .inr (applyUpdate_accepted accepts)
  · exact .inl (applyUpdate_rejected accepts)

theorem prepare_ok {catalog : ShardOwnershipCatalog} {request : TransitionRequest}
    {prepared : PreparedTransition} (ok : prepare catalog request = .ok prepared) :
    ∃ current, catalog.range request.collection request.rangeId = some current ∧
      current.owner = request.expectedOwner ∧ current.epoch = request.expectedEpoch ∧
      current.owner ≠ request.target ∧
      prepared.next = current.transferTo request.target request.newReplicas := by
  unfold prepare at ok
  cases held : catalog.range request.collection request.rangeId with
  | none => simp [held] at ok
  | some current =>
    simp only [held] at ok
    obtain ⟨_, expected, ok⟩ := except_bind_ok ok
    obtain ⟨_, candidate, ok⟩ := except_bind_ok ok
    obtain ⟨_, -, ok⟩ := except_bind_ok ok
    cases ok
    unfold checkExpected at expected
    split_ifs at expected with owner epoch version
    refine ⟨current, rfl, not_not.mp owner, not_not.mp epoch, fun same => ?_, rfl⟩
    simp [checkCandidate, RangeOwnership.roleOf, same] at candidate

theorem attemptHandoff_cases (catalog : ShardOwnershipCatalog) (collection : CollectionId) (rangeId : Nat)
    (source : NodeIdentity) (expectedEpoch expectedVersion : Nat) (target : NodeIdentity)
    (evidence : CatchUpEvidence) (watermark : CommitWatermark) :
    (∃ error, attemptHandoff catalog collection rangeId source expectedEpoch expectedVersion target evidence
      watermark = (.error error, catalog)) ∨
    ∃ outcome current, catalog.range collection rangeId = some current ∧ current.owner = source ∧
      current.epoch = expectedEpoch ∧ current.owner ≠ target ∧
      attemptHandoff catalog collection rangeId source expectedEpoch expectedVersion target evidence
        watermark = (.ok outcome, .store (current.transferTo target [source]) catalog) := by
  simp only [attemptHandoff, runTransition]
  cases ready : prepare catalog _ with
  | error rejection => exact .inl ⟨_, rfl⟩
  | ok prepared =>
    obtain ⟨current, held, owner, epoch, candidate, next⟩ := prepare_ok ready
    rcases catalog.update_cases prepared.next with ⟨error, failed⟩ | ⟨outcome, stored⟩
    · simp only [failed]
      exact .inl ⟨_, rfl⟩
    · rw [next] at stored
      simp only [next, stored]
      exact .inr ⟨_, current, held, owner, epoch, candidate, rfl⟩

end RedDB.Cluster
