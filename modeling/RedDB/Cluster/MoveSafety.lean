import RedDB.Cluster.MoveRange
import RedDB.Library.Runs

namespace RedDB.Cluster

open List Library Replay MoveRange Option Bool SortedMap

/-- What happens to one range around its move. Updates come from the other users of the catalog; a
    recovery works with a position that the target has persisted. -/
inductive MoveEvent
  | update (entry : RangeOwnership)
  | begin (target : NodeIdentity)
  | beginAuthorized (target : NodeIdentity) (placementAuthority : CollectionGroupPlacementAuthority)
    (caller : NodeIdentity)
  | completeSnapshot (snapshot : CommitWatermark)
  | catchUp (first last : Nat)
  | cutOver (live : CommitWatermark)
  | cutOverAuthorized (live : CommitWatermark) (caller : NodeIdentity)
  | abort
  | recover (position : RangeStreamPosition) (live : CommitWatermark)

/-- The catalog and the move, with what has been fed to the target, what was selected for apply and
    the watermarks for which the target was promoted. -/
structure Movement where
  catalog : ShardOwnershipCatalog
  move : Option MoveRange
  frontier : Nat
  selected : List ChangeRecord
  persisted : List RangeStreamPosition
  promotions : List CommitWatermark

namespace Movement

variable (stream : List ChangeRecord) (collection : CollectionId) (rangeId : Nat)

def initial : Movement := ⟨.new, none, 0, [], [], []⟩

section

variable (s : Movement)

def started : Except MoveError MoveRange × ShardOwnershipCatalog → Movement
  | (.error _, catalog) => { s with catalog := catalog }
  | (.ok move, catalog) => { s with catalog := catalog, move := some move }

variable (live : CommitWatermark)

def cut :
    Except MoveError TransitionOutcome × MoveRange × ShardOwnershipCatalog → Movement
  | (.error _, move, catalog) => { s with catalog := catalog, move := some move }
  | (.ok _, move, catalog) =>
    { s with catalog := catalog, move := some move, promotions := s.promotions ++ [live] }

def recovered :
    Except MoveError MoveRecovery × ShardOwnershipCatalog → Movement
  | (.ok (.promoted _), catalog) => { s with catalog := catalog, promotions := s.promotions ++ [live] }
  | (_, catalog) => { s with catalog := catalog }

def installed (snapshot : CommitWatermark) : Except MoveError MoveRange → Movement
  | .error _ => s
  | .ok move =>
    { s with
      move := some move
      frontier := frontierAt stream snapshot.lsn
      persisted := s.persisted ++ move.position.toList }

def caughtUp (first : Nat) (slice : List ChangeRecord) :
    Except MoveError (RangeCatchupPlan × MoveRange) → Movement
  | .error _ => s
  | .ok (plan, move) =>
    { s with
      move := some move
      frontier := max s.frontier (first + slice.length)
      selected := s.selected ++ plan.selects slice
      persisted := s.persisted ++ [plan.resume] }

def sliceOf (first last : Nat) : List ChangeRecord := (stream.drop first).take (last - first)

def moveStep (move : MoveRange) : MoveEvent → Option Movement
  | .completeSnapshot snapshot => some (s.installed stream snapshot (move.completeSnapshot snapshot))
  | .catchUp first last =>
    some (s.caughtUp first (sliceOf stream first last) (move.recordCatchUp (sliceOf stream first last)))
  | .cutOver live => some (s.cut live (move.cutOver s.catalog live))
  | .cutOverAuthorized live caller => some (s.cut live (move.cutOverAuthorized s.catalog live caller))
  | .abort => some { s with move := some move.abort }
  | .recover position live =>
    some (s.recovered live (recoverInterruptedMove s.catalog collection rangeId move.target position live))
  | .update _ | .begin _ | .beginAuthorized .. => none

def step : MoveEvent → Option Movement
  | .update entry => some { s with catalog := (s.catalog.update entry).2 }
  | .begin target =>
    if s.move = none then some (s.started (MoveRange.begin s.catalog collection rangeId target)) else none
  | .beginAuthorized target placementAuthority caller =>
    if s.move = none then
      some (s.started (MoveRange.beginAuthorized s.catalog collection rangeId target placementAuthority caller))
    else none
  | event => s.move.bind fun move => moveStep stream collection rangeId s move event

def authority : Option (NodeIdentity × Nat) :=
  (s.catalog.range collection rangeId).map fun entry => (entry.owner, entry.epoch)

def EpochsFrom : Prop :=
  ∀ record ∈ stream, record.rangeId = some rangeId → ∀ stamped ∈ record.ownershipEpoch,
    ∀ entry ∈ s.catalog.range collection rangeId, entry.epoch ≤ stamped

end

instance (s : Movement) : Decidable (EpochsFrom stream collection rangeId s) :=
  inferInstanceAs (Decidable (∀ record ∈ stream, record.rangeId = some rangeId →
    ∀ stamped ∈ record.ownershipEpoch, ∀ entry ∈ s.catalog.range collection rangeId, entry.epoch ≤ stamped))

/-- Once the move has begun, the others leave the owner and the epoch of the range alone. No slice
    skips a record that is still to come. -/
def Admits (s : Movement) : MoveEvent → Prop
  | .update entry => s.move = none ∨ entry.key ≠ toLex (collection, rangeId) ∨
      s.authority collection rangeId = some (entry.owner, entry.epoch)
  | .begin _ | .beginAuthorized .. => EpochsFrom stream collection rangeId s
  | .catchUp first _ => first ≤ s.frontier
  | .recover position _ => position ∈ s.persisted
  | _ => True

def OnStream : MoveEvent → Prop
  | .completeSnapshot snapshot => FitsStream stream snapshot.term snapshot.lsn
  | _ => True

instance (s : Movement) (event : MoveEvent) : Decidable (Admits stream collection rangeId s event) :=
  match event with
  | .update entry => inferInstanceAs (Decidable (s.move = none ∨ entry.key ≠ toLex (collection, rangeId) ∨
      s.authority collection rangeId = some (entry.owner, entry.epoch)))
  | .begin _ | .beginAuthorized .. => inferInstanceAs (Decidable (EpochsFrom stream collection rangeId s))
  | .catchUp first _ => inferInstanceAs (Decidable (first ≤ s.frontier))
  | .recover position _ => inferInstanceAs (Decidable (position ∈ s.persisted))
  | .completeSnapshot _ | .cutOver _ | .cutOverAuthorized .. | .abort => instDecidableTrue

instance (event : MoveEvent) : Decidable (OnStream stream event) :=
  match event with
  | .completeSnapshot snapshot => inferInstanceAs (Decidable
      (∀ record ∈ stream, snapshot.lsn < record.lsn → snapshot.term ≤ record.term))
  | .update _ | .begin _ | .beginAuthorized .. | .catchUp .. | .cutOver _ | .cutOverAuthorized .. | .abort
  | .recover .. => instDecidableTrue

/-- The target takes the range over from the source, and every record of the range up to the
    watermark is in the snapshot or selected exactly once. -/
structure Promotes (s t : Movement) (move : MoveRange) (live : CommitWatermark) : Prop where
  recorded : t.promotions = s.promotions ++ [live]
  owned : s.authority collection rangeId = some (move.source, move.expectedEpoch)
  moved : t.authority collection rangeId = some (move.target, move.expectedEpoch + 1)
  covered : (∃ record ∈ stream, live = ⟨record.term, record.lsn⟩) →
    ∃ snapshot, move.snapshotWatermark = some snapshot ∧
      ∀ record ∈ stream, record.rangeId = some rangeId → record.lsn ≤ live.lsn →
        (record.lsn ≤ snapshot.lsn ∧ s.selected.count record = 0) ∨
          (snapshot.lsn < record.lsn ∧ s.selected.count record = 1)

def Outcome (s : Movement) (event : MoveEvent) (t : Movement) : Prop :=
  (t.promotions = s.promotions ∧
    ((∃ entry, event = .update entry) ∨ t.authority collection rangeId = s.authority collection rangeId)) ∨
  ∃ move live, s.move = some move ∧ Promotes stream collection rangeId s t move live

def Keyed (catalog : ShardOwnershipCatalog) : Prop := ∀ k u, catalog.ranges.get? k = some u → u.key = k

structure Progress (s : Movement) (move : MoveRange) : Prop where
  ofCollection : move.collection = collection
  ofRange : move.rangeId = rangeId
  epochs : ∀ record ∈ stream, record.rangeId = some rangeId → ∀ stamped ∈ record.ownershipEpoch,
    move.expectedEpoch ≤ stamped
  copying : move.phase = .copyingSnapshot → move.snapshotWatermark = none
  before : move.snapshotWatermark = none → move.position = none ∧ s.selected = [] ∧ s.persisted = []
  after : ∀ snapshot, move.snapshotWatermark = some snapshot →
    FitsStream stream snapshot.term snapshot.lsn ∧ ∃ position, move.position = some position ∧
      Tip stream rangeId snapshot.lsn snapshot.term s.frontier position s.selected ∧
      ∀ p ∈ s.persisted, Vouches stream rangeId snapshot.lsn snapshot.term s.selected p

structure Moving (s : Movement) (move : MoveRange) : Prop extends
    Progress stream collection rangeId s move where
  source : s.promotions = [] → s.authority collection rangeId = some (move.source, move.expectedEpoch)
  target : s.promotions ≠ [] → ∃ epoch, s.authority collection rangeId = some (move.target, epoch)

structure Consistent (s : Movement) : Prop where
  keyed : Keyed s.catalog
  idle : s.move = none → s.promotions = [] ∧ s.selected = [] ∧ s.persisted = []
  moving : ∀ move, s.move = some move → Moving stream collection rangeId s move

variable {stream collection rangeId}

variable {catalog : ShardOwnershipCatalog}

theorem keyed_store (keyed : Keyed catalog) (entry : RangeOwnership) : Keyed (.store entry catalog) := by
  intro k u held
  rw [ShardOwnershipCatalog.store_get?] at held
  split_ifs at held with same
  · cases held
    exact same.symm
  · exact keyed k u held

theorem keyed_update (keyed : Keyed catalog) (entry : RangeOwnership) : Keyed (catalog.update entry).2 := by
  rcases catalog.update_cases entry with ⟨error, failed⟩ | ⟨outcome, stored⟩
  · rw [failed]
    exact keyed
  · rw [stored]
    exact keyed_store keyed entry

variable {current entry : RangeOwnership}

theorem range_store (keyed : Keyed catalog) (held : catalog.range collection rangeId = some current)
    (same : entry.key = current.key) :
    (ShardOwnershipCatalog.store entry catalog).range collection rangeId = some entry := by
  have key := keyed _ _ held
  simp [ShardOwnershipCatalog.range, same, key]

structure Continues (move later : MoveRange) : Prop where
  collection : later.collection = move.collection
  range : later.rangeId = move.rangeId
  source : later.source = move.source
  target : later.target = move.target
  epoch : later.expectedEpoch = move.expectedEpoch
  snapshot : later.snapshotWatermark = move.snapshotWatermark
  position : later.position = move.position
  phase : later.phase = .copyingSnapshot → move.phase = .copyingSnapshot

theorem Continues.refl (move : MoveRange) : Continues move move := ⟨rfl, rfl, rfl, rfl, rfl, rfl, rfl, id⟩

variable {s t : Movement} {later move : MoveRange}

theorem Progress.frame (progress : Progress stream collection rangeId s move) (continues : Continues move later)
    (frontier : t.frontier = s.frontier) (selected : t.selected = s.selected)
    (persisted : t.persisted = s.persisted) : Progress stream collection rangeId t later := by
  refine ⟨continues.collection.trans progress.ofCollection, continues.range.trans progress.ofRange, ?_, ?_, ?_, ?_⟩
  · rw [continues.epoch]
    exact progress.epochs
  · rw [continues.snapshot]
    exact fun copying => progress.copying (continues.phase copying)
  · rw [continues.snapshot, continues.position, selected, persisted]
    exact progress.before
  · rw [continues.snapshot, continues.position, selected, persisted, frontier]
    exact progress.after

theorem Moving.advance
    (moving : Moving stream collection rangeId s move) (progress : Progress stream collection rangeId t later)
    (authority : t.authority collection rangeId = s.authority collection rangeId)
    (promotions : t.promotions = s.promotions) (source : later.source = move.source)
    (target : later.target = move.target) (epoch : later.expectedEpoch = move.expectedEpoch) :
    Moving stream collection rangeId t later := by
  refine ⟨progress, ?_, ?_⟩
  · rw [promotions, authority, source, epoch]
    exact moving.source
  · rw [promotions, authority, target]
    exact moving.target

theorem authority_eq (held : s.catalog.range collection rangeId = some current) :
    s.authority collection rangeId = some (current.owner, current.epoch) := by
  rw [authority, held, map_some]

theorem update_authority (kept : entry.key ≠ toLex (collection, rangeId) ∨
      s.authority collection rangeId = some (entry.owner, entry.epoch))
    (state : t.catalog = (s.catalog.update entry).2) :
    t.authority collection rangeId = s.authority collection rangeId := by
  rcases s.catalog.update_cases entry with ⟨error, failed⟩ | ⟨outcome, stored⟩
  · rw [authority, state, failed, authority]
  · rw [authority, state, stored]
    by_cases same : entry.key = toLex (collection, rangeId)
    · rcases kept with other | agrees
      · exact absurd same other
      · rw [agrees]
        simp [ShardOwnershipCatalog.range, same]
    · have other : toLex (collection, rangeId) ≠ entry.key := fun equal => same equal.symm
      simp [ShardOwnershipCatalog.range, authority, other]

variable (collection rangeId) in
/-- What `begin` returns: a move that has yet to copy its snapshot, and a catalog with the same authority. -/
structure Begun (s : Movement) (result : Except MoveError MoveRange × ShardOwnershipCatalog) : Prop where
  keyed : Keyed result.2
  authority : ({ s with catalog := result.2 } : Movement).authority collection rangeId =
    s.authority collection rangeId
  move : ∀ move, result.1 = .ok move → move.collection = collection ∧ move.rangeId = rangeId ∧
    s.authority collection rangeId = some (move.source, move.expectedEpoch) ∧
    move.phase = .copyingSnapshot ∧ move.snapshotWatermark = none ∧ move.position = none

theorem begin_begun (keyed : Keyed s.catalog) (target : NodeIdentity) :
    Begun collection rangeId s (MoveRange.begin s.catalog collection rangeId target) := by
  unfold MoveRange.begin
  cases held : s.catalog.range collection rangeId with
  | none => exact ⟨keyed, rfl, nofun⟩
  | some current =>
    have owned := authority_eq held
    simp only
    split_ifs with incumbent replica
    · exact ⟨keyed, rfl, nofun⟩
    · refine ⟨keyed, rfl, fun move returned => ?_⟩
      cases returned
      exact ⟨rfl, rfl, owned, rfl, rfl, rfl⟩
    · have enlisted : s.authority collection rangeId = some
          ((MoveRange.enlist current target).owner, (MoveRange.enlist current target).epoch) := owned
      have kept : ({ s with catalog := (s.catalog.update (MoveRange.enlist current target)).2 } :
          Movement).authority collection rangeId = s.authority collection rangeId :=
        update_authority (.inr enlisted) rfl
      have stays := keyed_update keyed (MoveRange.enlist current target)
      rcases s.catalog.update_cases (MoveRange.enlist current target) with ⟨error, failed⟩ | ⟨outcome, stored⟩
      · rw [failed] at kept stays ⊢
        exact ⟨stays, kept, nofun⟩
      · rw [stored] at kept stays ⊢
        refine ⟨stays, kept, fun move returned => ?_⟩
        cases returned
        exact ⟨rfl, rfl, owned, rfl, rfl, rfl⟩

theorem beginAuthorized_begun (keyed : Keyed s.catalog) (target : NodeIdentity)
    (placementAuthority : CollectionGroupPlacementAuthority) (caller : NodeIdentity) :
    Begun collection rangeId s
      (MoveRange.beginAuthorized s.catalog collection rangeId target placementAuthority caller) := by
  unfold MoveRange.beginAuthorized
  cases validatePlacementAuthority collection placementAuthority caller with
  | error error => exact ⟨keyed, rfl, nofun⟩
  | ok =>
    have begun : Begun collection rangeId s _ := begin_begun keyed target
    rcases started : MoveRange.begin s.catalog collection rangeId target with ⟨error | movement, after⟩
    · rw [started] at begun
      exact ⟨begun.keyed, begun.authority, nofun⟩
    · rw [started] at begun
      refine ⟨begun.keyed, begun.authority, fun move returned => ?_⟩
      cases returned
      exact begun.move movement rfl

theorem Begun.consistent {result : Except MoveError MoveRange × ShardOwnershipCatalog}
    (begun : Begun collection rangeId s result) (consistent : Consistent stream collection rangeId s)
    (unmoved : s.move = none) (epochs : EpochsFrom stream collection rangeId s) :
    Consistent stream collection rangeId (s.started result) ∧ (s.started result).promotions = s.promotions ∧
      (s.started result).authority collection rangeId = s.authority collection rangeId := by
  obtain ⟨promotions, selected, persisted⟩ := consistent.idle unmoved
  rcases result with ⟨error | move, after⟩
  · refine ⟨⟨begun.keyed, consistent.idle, fun move moved => ?_⟩, rfl, begun.authority⟩
    exact absurd (unmoved.symm.trans moved) nofun
  · obtain ⟨ofCollection, ofRange, owned, phase, snapshot, position⟩ := begun.move move rfl
    refine ⟨⟨begun.keyed, nofun, ?_⟩, rfl, begun.authority⟩
    rintro _ ⟨⟩
    refine ⟨⟨ofCollection, ofRange, ?_, fun _ => snapshot, fun _ => ⟨position, selected, persisted⟩,
      fun other installed => ?_⟩, fun _ => begun.authority.trans owned, fun promoted => absurd promotions promoted⟩
    · intro record member own stamped held
      cases entry : s.catalog.range collection rangeId with
      | none => simp [Movement.authority, entry] at owned
      | some current =>
        have same := (authority_eq entry).symm.trans owned
        simp only [Option.some.injEq, Prod.mk.injEq] at same
        rw [← same.2]
        exact epochs record member own stamped held current entry
    · rw [snapshot] at installed
      cases installed

variable {snapshot : CommitWatermark} {position : RangeStreamPosition}

theorem Moving.covered (order : StreamOrder stream rangeId)
    (moving : Moving stream collection rangeId s move) {live : CommitWatermark}
    (installed : move.snapshotWatermark = some snapshot)
    (vouches : Vouches stream rangeId snapshot.lsn snapshot.term s.selected position)
    (covers : (CatchUpEvidence.mk move.target position.acceptedTerm position.appliedLsn).covers live = true)
    {committed : ChangeRecord} (member : committed ∈ stream) (watermark : live = ⟨committed.term, committed.lsn⟩)
    {record : ChangeRecord} (present : record ∈ stream) (own : record.rangeId = some rangeId)
    (upTo : record.lsn ≤ live.lsn) :
    (record.lsn ≤ snapshot.lsn ∧ s.selected.count record = 0) ∨
      (snapshot.lsn < record.lsn ∧ s.selected.count record = 1) := by
  obtain ⟨fits, tipPosition, -, tip, -⟩ := moving.after snapshot installed
  subst watermark
  simp only [CatchUpEvidence.covers, or_eq_true, and_eq_true, decide_eq_true_eq, beq_iff_eq] at covers
  have passed := vouches.passed order fits member covers
  by_cases due : snapshot.lsn < record.lsn
  · have selected := vouches.selects record present (by simp [dueAfter, own, due]) (upTo.trans passed)
    exact .inr ⟨due, (tip.count order selected).1⟩
  · have absent : record ∉ s.selected := fun selected => due (tip.count order selected).2
    exact .inl ⟨not_lt.mp due, count_eq_zero_of_not_mem absent⟩

theorem Consistent.promote (order : StreamOrder stream rangeId)
    (consistent : Consistent stream collection rangeId s) (under : s.move = some move)
    (held : s.catalog.range collection rangeId = some current)
    (candidate : current.owner ≠ move.target) {live : CommitWatermark}
    (installed : move.snapshotWatermark = some snapshot)
    (vouches : Vouches stream rangeId snapshot.lsn snapshot.term s.selected position)
    (covers : (CatchUpEvidence.mk move.target position.acceptedTerm position.appliedLsn).covers live = true)
    (after : t = { s with
      catalog := .store (current.transferTo move.target [current.owner]) s.catalog
      move := some later
      promotions := s.promotions ++ [live] })
    (continues : Continues move later) :
    Consistent stream collection rangeId t ∧ Promotes stream collection rangeId s t move live := by
  have moving := consistent.moving move under
  have owner := authority_eq held
  have unpromoted : s.promotions = [] := by
    by_contra promoted
    obtain ⟨epoch, authority⟩ := moving.target promoted
    rw [owner] at authority
    simp only [Option.some.injEq, Prod.mk.injEq] at authority
    exact candidate authority.1
  have owned := moving.source unpromoted
  have expected : current.epoch = move.expectedEpoch := by
    rw [owner] at owned
    simp only [Option.some.injEq, Prod.mk.injEq] at owned
    exact owned.2
  have stored : t.catalog.range collection rangeId = some (current.transferTo move.target [current.owner]) := by
    rw [after]
    exact range_store consistent.keyed held rfl
  have moved : t.authority collection rangeId = some (move.target, move.expectedEpoch + 1) := by
    rw [authority_eq stored, ← expected]
    rfl
  subst after
  refine ⟨⟨keyed_store consistent.keyed _, nofun, ?_⟩, rfl, owned, moved, ?_⟩
  · rintro _ ⟨⟩
    refine ⟨moving.toProgress.frame continues rfl rfl rfl, fun none => ?_, fun _ => ⟨move.expectedEpoch + 1, ?_⟩⟩
    · simp at none
    · rw [moved, continues.target]
  · rintro ⟨committed, member, watermark⟩
    refine ⟨snapshot, installed, fun record present own upTo => ?_⟩
    exact moving.covered order installed vouches covers member watermark present own upTo

section

variable (consistent : Consistent stream collection rangeId s)
include consistent

theorem Consistent.advance (under : s.move = some move)
    (catalog : t.catalog = s.catalog) (moves : t.move = some later) (promotions : t.promotions = s.promotions)
    (progress : Progress stream collection rangeId t later) (source : later.source = move.source)
    (target : later.target = move.target) (epoch : later.expectedEpoch = move.expectedEpoch)
    (event : MoveEvent) :
    Consistent stream collection rangeId t ∧ Outcome stream collection rangeId s event t := by
  have authority : t.authority collection rangeId = s.authority collection rangeId := by
    rw [Movement.authority, catalog, Movement.authority]
  refine ⟨⟨catalog ▸ consistent.keyed, fun none => ?_, fun other held => ?_⟩, .inl ⟨promotions, .inr authority⟩⟩
  · rw [moves] at none
    cases none
  · rw [moves] at held
    cases held
    exact (consistent.moving move under).advance progress authority promotions source target epoch

theorem Consistent.stay (event : MoveEvent) :
    Consistent stream collection rangeId s ∧ Outcome stream collection rangeId s event s :=
  ⟨consistent, .inl ⟨rfl, .inr rfl⟩⟩

end

theorem cut_error (under : s.move = some move) (live : CommitWatermark)
    (error : MoveError) : s.cut live (.error error, move, s.catalog) = s := by
  rw [cut, ← under]

theorem installed_step (order : StreamOrder stream rangeId)
    (consistent : Consistent stream collection rangeId s) (under : s.move = some move)
    (fits : FitsStream stream snapshot.term snapshot.lsn) (event : MoveEvent) :
    Consistent stream collection rangeId (s.installed stream snapshot (move.completeSnapshot snapshot)) ∧
      Outcome stream collection rangeId s event
        (s.installed stream snapshot (move.completeSnapshot snapshot)) := by
  have moving := consistent.moving move under
  unfold MoveRange.completeSnapshot
  split_ifs with copying
  · obtain ⟨-, selected, persisted⟩ := moving.before (moving.copying copying)
    refine consistent.advance under (by rfl) (by rfl) (by rfl) ?_ (by rfl) (by rfl) (by rfl) event
    refine ⟨moving.ofCollection, moving.ofRange, moving.epochs, nofun, nofun, ?_⟩
    rintro _ ⟨⟩
    have tip := Tip.initial order fits moving.epochs
    simp only [installed, moving.ofRange, selected, persisted, toList_some, nil_append]
    refine ⟨fits, _, rfl, tip, fun p member => ?_⟩
    rw [mem_singleton.mp member]
    exact tip.vouches
  · exact consistent.stay event

theorem sliceOf_segment (stream : List ChangeRecord) (first last : Nat) :
    sliceOf stream first last <+: stream.drop first := take_prefix _ _

theorem caughtUp_step (order : StreamOrder stream rangeId)
    (consistent : Consistent stream collection rangeId s) (under : s.move = some move)
    {first : Nat} (reaches : first ≤ s.frontier) {slice : List ChangeRecord}
    (segment : slice <+: stream.drop first) (event : MoveEvent) :
    Consistent stream collection rangeId (s.caughtUp first slice (move.recordCatchUp slice)) ∧
      Outcome stream collection rangeId s event (s.caughtUp first slice (move.recordCatchUp slice)) := by
  have moving := consistent.moving move under
  unfold recordCatchUp
  split_ifs with catching
  · refine consistent.advance under (by rfl) (by rfl) (by rfl) ?_ (by rfl) (by rfl) (by rfl) event
    have positioned := move.positioned catching
    refine ⟨moving.ofCollection, moving.ofRange, moving.epochs, ?_, ?_, ?_⟩
    · intro copying
      exact absurd (catching.symm.trans copying) nofun
    · intro none
      rw [(moving.before none).1] at positioned
      cases positioned
    · intro snapshot held
      obtain ⟨fits, position, at_, tip, vouched⟩ := moving.after snapshot held
      have fed := tip.catchUp order segment reaches
      simp only [caughtUp, at_, get_some]
      refine ⟨fits, _, rfl, fed, fun p member => ?_⟩
      rcases mem_append.mp member with earlier | last
      · exact (vouched p earlier).mono
      · rw [mem_singleton.mp last]
        exact fed.vouches
  · exact consistent.stay event

theorem cutOver_cases (move : MoveRange) (catalog : ShardOwnershipCatalog) (live : CommitWatermark) :
    (∃ error, move.cutOver catalog live = (.error error, move, catalog)) ∨
    ∃ outcome current position later, move.position = some position ∧
      (CatchUpEvidence.mk move.target position.acceptedTerm position.appliedLsn).covers live = true ∧
      catalog.range move.collection move.rangeId = some current ∧ current.owner ≠ move.target ∧
      Continues move later ∧ move.cutOver catalog live =
        (.ok outcome, later, .store (current.transferTo move.target [current.owner]) catalog) := by
  unfold MoveRange.cutOver
  split_ifs with catching
  · obtain ⟨position, held⟩ := isSome_iff_exists.mp (move.positioned catching)
    simp only [catchUpEvidence, held, map_some, get_some]
    split_ifs with behind
    · exact .inl ⟨_, rfl⟩
    · rcases attemptHandoff_cases catalog move.collection move.rangeId move.source move.expectedEpoch
        move.expectedVersion move.target ⟨move.target, position.acceptedTerm, position.appliedLsn⟩ live with
        ⟨error, failed⟩ | ⟨outcome, current, present, owner, epoch, candidate, moved⟩
      · simp only [failed]
        exact .inl ⟨_, rfl⟩
      · simp only [moved]
        refine .inr ⟨outcome, current, position, _, rfl, not_eq_false _ ▸ behind, present, candidate, ?_,
          by rw [owner]⟩
        exact ⟨rfl, rfl, rfl, rfl, rfl, rfl, held.symm, fun copying => by cases copying⟩
  · exact .inl ⟨_, rfl⟩

section

variable (order : StreamOrder stream rangeId) (consistent : Consistent stream collection rangeId s)
  (under : s.move = some move) (live : CommitWatermark)
include order consistent under live

theorem cut_step (event : MoveEvent) :
    Consistent stream collection rangeId (s.cut live (move.cutOver s.catalog live)) ∧
      Outcome stream collection rangeId s event (s.cut live (move.cutOver s.catalog live)) := by
  have moving := consistent.moving move under
  rcases cutOver_cases move s.catalog live with
    ⟨error, failed⟩ | ⟨outcome, current, position, later, at_, covers, held, candidate, continues, cutOver⟩
  · rw [failed, cut_error under]
    exact consistent.stay event
  · rw [cutOver]
    rw [moving.ofCollection, moving.ofRange] at held
    cases installed : move.snapshotWatermark with
    | none =>
      rw [(moving.before installed).1] at at_
      cases at_
    | some snapshot =>
      obtain ⟨-, tipPosition, tipHeld, tip, -⟩ := moving.after snapshot installed
      rw [at_] at tipHeld
      cases tipHeld
      obtain ⟨later, promotes⟩ :=
        consistent.promote order under held candidate installed tip.vouches covers rfl continues
      exact ⟨later, .inr ⟨move, live, under, promotes⟩⟩

theorem cutAuthorized_step (caller : NodeIdentity) (event : MoveEvent) :
    Consistent stream collection rangeId (s.cut live (move.cutOverAuthorized s.catalog live caller)) ∧
      Outcome stream collection rangeId s event
        (s.cut live (move.cutOverAuthorized s.catalog live caller)) := by
  unfold MoveRange.cutOverAuthorized
  cases move.placementAuthority with
  | none =>
    rw [cut_error under]
    exact consistent.stay event
  | some placementAuthority =>
    simp only
    cases validatePlacementAuthority move.collection placementAuthority caller with
    | error error =>
      rw [cut_error under]
      exact consistent.stay event
    | ok => exact cut_step order consistent under live event

end

theorem recover_cases (catalog : ShardOwnershipCatalog) (target : NodeIdentity) (position : RangeStreamPosition)
    (live : CommitWatermark) :
    (∃ result, (∀ outcome, result ≠ .ok (.promoted outcome)) ∧
      recoverInterruptedMove catalog collection rangeId target position live = (result, catalog)) ∨
    ∃ outcome current, (CatchUpEvidence.mk target position.acceptedTerm position.appliedLsn).covers live = true ∧
      catalog.range collection rangeId = some current ∧ current.owner ≠ target ∧
      recoverInterruptedMove catalog collection rangeId target position live =
        (.ok (.promoted outcome), .store (current.transferTo target [current.owner]) catalog) := by
  unfold recoverInterruptedMove
  cases held : catalog.range collection rangeId with
  | none => exact .inl ⟨_, by simp, rfl⟩
  | some current =>
    simp only
    split_ifs with behind
    · exact .inl ⟨_, by simp, rfl⟩
    · rcases attemptHandoff_cases catalog collection rangeId current.owner current.epoch current.version target
        ⟨target, position.acceptedTerm, position.appliedLsn⟩ live with
        ⟨error, failed⟩ | ⟨outcome, found, present, -, -, candidate, moved⟩
      · simp only [failed]
        exact .inl ⟨_, by simp, rfl⟩
      · rw [held] at present
        cases present
        simp only [moved]
        exact .inr ⟨outcome, current, not_eq_false _ ▸ behind, rfl, candidate, rfl⟩

theorem recovered_step (order : StreamOrder stream rangeId)
    (consistent : Consistent stream collection rangeId s) (under : s.move = some move)
    (persisted : position ∈ s.persisted) (live : CommitWatermark)
    (event : MoveEvent) (taken : t = s.recovered live
      (recoverInterruptedMove s.catalog collection rangeId move.target position live)) :
    Consistent stream collection rangeId t ∧ Outcome stream collection rangeId s event t := by
  have moving := consistent.moving move under
  rcases recover_cases s.catalog move.target position live with
    ⟨result, unpromoted, answered⟩ | ⟨outcome, current, covers, held, candidate, promoted⟩
  · rw [answered] at taken
    have same : t = s := by
      rw [taken]
      match result, unpromoted with
      | .error _, _ => rfl
      | .ok (.abortedSourceRetained ..), _ => rfl
      | .ok (.promoted outcome), never => exact absurd rfl (never outcome)
    rw [same]
    exact consistent.stay event
  · rw [promoted] at taken
    cases installed : move.snapshotWatermark with
    | none =>
      rw [(moving.before installed).2.2] at persisted
      cases persisted
    | some snapshot =>
      obtain ⟨-, _, -, -, vouched⟩ := moving.after snapshot installed
      have after : t = { s with
          catalog := .store (current.transferTo move.target [current.owner]) s.catalog
          move := some move
          promotions := s.promotions ++ [live] } := by
        rw [taken, ← under]
        rfl
      obtain ⟨later, promotes⟩ := consistent.promote order under held candidate installed
        (vouched position persisted) covers after (.refl move)
      exact ⟨later, .inr ⟨move, live, under, promotes⟩⟩

theorem Consistent.update (consistent : Consistent stream collection rangeId s)
    (admitted : Admits stream collection rangeId s (.update entry)) :
    Consistent stream collection rangeId { s with catalog := (s.catalog.update entry).2 } := by
  refine ⟨keyed_update consistent.keyed entry, consistent.idle, fun move under => ?_⟩
  have moving := consistent.moving move under
  rcases admitted with unmoved | kept
  · exact absurd (unmoved.symm.trans under) nofun
  · exact moving.advance (moving.toProgress.frame (.refl move) rfl rfl rfl) (update_authority kept rfl) rfl rfl rfl rfl

theorem step_safe (order : StreamOrder stream rangeId) {event : MoveEvent}
    (consistent : Consistent stream collection rangeId s) (admitted : Admits stream collection rangeId s event)
    (onStream : OnStream stream event) (taken : step stream collection rangeId s event = some t) :
    Consistent stream collection rangeId t ∧ Outcome stream collection rangeId s event t := by
  cases event with
  | update entry =>
    cases taken
    exact ⟨consistent.update admitted, .inl ⟨rfl, .inl ⟨entry, rfl⟩⟩⟩
  | begin target =>
    simp only [step] at taken
    split_ifs at taken with unmoved
    cases taken
    obtain ⟨later, promotions, authority⟩ :=
      (begin_begun consistent.keyed target).consistent consistent unmoved admitted
    exact ⟨later, .inl ⟨promotions, .inr authority⟩⟩
  | beginAuthorized target placementAuthority caller =>
    simp only [step] at taken
    split_ifs at taken with unmoved
    cases taken
    obtain ⟨later, promotions, authority⟩ :=
      (beginAuthorized_begun consistent.keyed target placementAuthority caller).consistent consistent unmoved
        admitted
    exact ⟨later, .inl ⟨promotions, .inr authority⟩⟩
  | completeSnapshot snapshot =>
    obtain ⟨move, under, taken⟩ := bind_eq_some_iff.mp taken
    cases taken
    exact installed_step order consistent under onStream _
  | catchUp first last =>
    obtain ⟨move, under, taken⟩ := bind_eq_some_iff.mp taken
    cases taken
    exact caughtUp_step order consistent under admitted (sliceOf_segment stream first last) _
  | cutOver live =>
    obtain ⟨move, under, taken⟩ := bind_eq_some_iff.mp taken
    cases taken
    exact cut_step order consistent under live _
  | cutOverAuthorized live caller =>
    obtain ⟨move, under, taken⟩ := bind_eq_some_iff.mp taken
    cases taken
    exact cutAuthorized_step order consistent under live caller _
  | abort =>
    obtain ⟨move, under, taken⟩ := bind_eq_some_iff.mp taken
    cases taken
    have continues : Continues move move.abort := ⟨rfl, rfl, rfl, rfl, rfl, rfl, rfl, nofun⟩
    have progress := (consistent.moving move under).toProgress
    exact consistent.advance under (by rfl) (by rfl) (by rfl)
      (progress.frame continues (by rfl) (by rfl) (by rfl)) continues.source continues.target continues.epoch _
  | recover position live =>
    obtain ⟨move, under, taken⟩ := bind_eq_some_iff.mp taken
    exact recovered_step order consistent under admitted live _ (Option.some.inj taken).symm

theorem consistent_initial : Consistent stream collection rangeId initial :=
  ⟨fun k u held => by simp [initial, ShardOwnershipCatalog.new, empty, get?] at held, fun _ => ⟨rfl, rfl, rfl⟩, nofun⟩

/-- The source owns the range until the target is promoted, and a promotion loses no record. -/
theorem moves_lose_nothing (order : StreamOrder stream rangeId) {events : List MoveEvent} {s : Movement}
    (run : Run (Guarded (Steps (step stream collection rangeId))
      fun s event => Admits stream collection rangeId s event ∧ OnStream stream event) initial events s) :
    (∀ move, s.move = some move → s.promotions = [] →
      s.authority collection rangeId = some (move.source, move.expectedEpoch)) ∧
    ∀ event t, Admits stream collection rangeId s event → OnStream stream event →
      step stream collection rangeId s event = some t → Outcome stream collection rangeId s event t := by
  have consistent : Consistent stream collection rangeId s := by
    refine run.invariant ?_ consistent_initial
    intro before event after consistent taken
    exact (step_safe order consistent taken.1.1 taken.1.2 taken.2).1
  refine ⟨fun move under => (consistent.moving move under).source, fun event t admitted onStream taken => ?_⟩
  exact (step_safe order consistent admitted onStream taken).2

def ordersRange : RangeOwnership := .establish "orders" 1 .ordered .full "node-a" [] ⟨2, []⟩

def orderRecord (term lsn rangeId : Nat) : ChangeRecord where
  term := term
  lsn := lsn
  timestamp := 0
  operation := .insert
  collection := "orders"
  entityId := lsn
  entityKind := "row"
  entityBytes := none
  metadata := none
  refreshRecords := none
  rangeId := some rangeId
  ownershipEpoch := some 1

def twoTerms : List ChangeRecord := [orderRecord 4 1 1, orderRecord 4 2 2, orderRecord 5 3 1, orderRecord 5 4 1]

/-- The target enters with the snapshot at position 1 and is fed two slices that overlap. -/
theorem moves_lose_nothing_two_slices : ∃ s t, Run (Guarded (Steps (step twoTerms "orders" 1))
        fun s event => Admits twoTerms "orders" 1 s event ∧ OnStream twoTerms event) initial
      [.update ordersRange, .begin "node-b", .completeSnapshot ⟨4, 1⟩, .catchUp 0 3, .catchUp 1 4] s ∧
      step twoTerms "orders" 1 s (.cutOver ⟨5, 4⟩) = some t ∧ t.promotions = [⟨5, 4⟩] ∧
      Outcome twoTerms "orders" 1 s (.cutOver ⟨5, 4⟩) t := by
  obtain ⟨s, run, cuts⟩ := execute_reaches (step twoTerms "orders" 1)
    (fun s event => Admits twoTerms "orders" 1 s event ∧ OnStream twoTerms event) initial
    [.update ordersRange, .begin "node-b", .completeSnapshot ⟨4, 1⟩, .catchUp 0 3, .catchUp 1 4]
    (fun s => (step twoTerms "orders" 1 s (.cutOver ⟨5, 4⟩)).any fun t => t.promotions = [⟨5, 4⟩])
    (by decide +kernel)
  obtain ⟨t, taken, promoted⟩ := (Option.any_eq_true _ _).mp cuts
  have order : StreamOrder twoTerms 1 := ⟨by decide, by decide, by decide⟩
  exact ⟨s, t, run, taken, of_decide_eq_true promoted, (moves_lose_nothing order run).2 _ t trivial trivial taken⟩

def oneTerm : List ChangeRecord := [orderRecord 5 4 1, orderRecord 5 5 1]

/-- A snapshot whose term is above the stream's fences the records after it off, and still covers the
    watermark of the last of them. -/
theorem snapshot_term_above_stream :
    StreamOrder oneTerm 1 ∧ ∃ s, Run (Guarded (Steps (step oneTerm "orders" 1)) (Admits oneTerm "orders" 1))
        initial [.update ordersRange, .begin "node-b", .completeSnapshot ⟨9, 3⟩, .catchUp 0 2, .cutOver ⟨5, 5⟩] s ∧
      s.promotions = [⟨5, 5⟩] ∧ s.authority "orders" 1 = some ("node-b", 2) ∧
      ∀ record ∈ oneTerm, 3 < record.lsn ∧ s.selected.count record = 0 := by
  refine ⟨⟨by decide, by decide, by decide⟩, ?_⟩
  obtain ⟨s, run, lost⟩ := execute_reaches (step oneTerm "orders" 1) (Admits oneTerm "orders" 1) initial
    [.update ordersRange, .begin "node-b", .completeSnapshot ⟨9, 3⟩, .catchUp 0 2, .cutOver ⟨5, 5⟩]
    (fun s => s.promotions = [⟨5, 5⟩] ∧ s.authority "orders" 1 = some ("node-b", 2) ∧
      ∀ record ∈ oneTerm, 3 < record.lsn ∧ s.selected.count record = 0) (by decide +kernel)
  exact ⟨s, run, of_decide_eq_true lost⟩

end Movement

end RedDB.Cluster
