import RedDB.Replication.Primary

namespace RedDB.Replication

open List Library QuorumCoordinator Option

def appendedRecords (es : List PrimaryEvent) : List (Nat × Bytes) :=
  es.filterMap fun
    | .appendLogicalRecord lsn encoded => some (lsn, encoded)
    | _ => none

/-- Records are appended at increasing positions that a `u64` holds. -/
def QuorumCoordinator.Increasing (c : QuorumCoordinator) : PrimaryEvent → Prop
  | .appendLogicalRecord lsn _ => c.primary.walBuffer.currentLsn < lsn ∧ lsn < 2 ^ 64
  | _ => True

instance (c : QuorumCoordinator) (e : PrimaryEvent) : Decidable (c.Increasing e) :=
  match e with
  | .appendLogicalRecord lsn _ => inferInstanceAs (Decidable (c.primary.walBuffer.currentLsn < lsn ∧ lsn < 2 ^ 64))
  | .registerReplicaWithRegion _ _ _ | .ensureReplicaRegistered _ _ _ | .unregisterReplica _ | .ackReplica _ _ _
  | .ackReplicaLsn _ _ _ _ _ _ | .noteReplicaPull _ _ _ | .bindReplicaRegion _ _ | .unbindReplica _
  | .enforceRetentionLimits _ | .pruneRetainedWalThrough _ _ _ | .planReplicaResume _ _ _ =>
    inferInstanceAs (Decidable True)

namespace PrimaryReplication

variable (p : PrimaryReplication) (id : String)

@[simp] theorem ensureSlot_walBuffer (initialLsn nowMs : Nat) :
    (p.ensureSlot id initialLsn nowMs).2.walBuffer = p.walBuffer := by
  unfold ensureSlot
  split <;> rfl

@[simp] theorem registerReplicaWithRegionAt_walBuffer (region : Option String) (initialLsn nowMs : Nat) :
    (p.registerReplicaWithRegionAt id region initialLsn nowMs).walBuffer = p.walBuffer := by
  have kept := p.ensureSlot_walBuffer id initialLsn nowMs
  unfold registerReplicaWithRegionAt
  dsimp only
  split_ifs
  · exact kept
  · exact kept

@[simp] theorem ensureReplicaRegistered_walBuffer (requestedSinceLsn nowMs : Nat) :
    (p.ensureReplicaRegistered id requestedSinceLsn nowMs).walBuffer = p.walBuffer := by
  unfold ensureReplicaRegistered
  split_ifs
  · rfl
  · exact p.registerReplicaWithRegionAt_walBuffer id _ _ _

@[simp] theorem unregisterReplica_walBuffer : (p.unregisterReplica id).walBuffer = p.walBuffer := by
  unfold unregisterReplica
  dsimp only
  split_ifs <;> rfl

@[simp] theorem noteReplicaPull_walBuffer (lastSentLsn nowMs : Nat) :
    (p.noteReplicaPull id lastSentLsn nowMs).walBuffer = p.walBuffer := by
  unfold noteReplicaPull touchSlot
  split <;> rfl

@[simp] theorem planReplicaResume_walBuffer (requestedSinceLsn nowMs : Nat) (oldest : Option Nat) :
    (p.planReplicaResume id requestedSinceLsn oldest nowMs).2.walBuffer = p.walBuffer := by
  have checked : (p.slotRebootstrapReason id requestedSinceLsn oldest nowMs).2.walBuffer = p.walBuffer := by
    unfold slotRebootstrapReason
    split
    · rfl
    · split
      · rfl
      · dsimp only
        split_ifs <;> rfl
  unfold planReplicaResume
  generalize p.slotRebootstrapReason id requestedSinceLsn oldest nowMs = answer at checked
  obtain ⟨cause, q⟩ := answer
  cases cause with
  | none => exact checked
  | some cause => exact checked

theorem pruneRetainedWalThrough_walBuffer (archivedLsn nowMs : Nat) (metadataDurable : Bool) :
    (p.pruneRetainedWalThrough archivedLsn nowMs metadataDurable).walBuffer.records <:+ p.walBuffer.records ∧
      (p.pruneRetainedWalThrough archivedLsn nowMs metadataDurable).walBuffer.currentLsn = p.walBuffer.currentLsn := by
  unfold pruneRetainedWalThrough
  dsimp only
  split_ifs
  · exact ⟨dropWhile_suffix _, rfl⟩
  · exact ⟨suffix_rfl, rfl⟩

end PrimaryReplication

structure WalBuffer.Retains (buffer : WalBuffer) (appended : List (Nat × Bytes)) : Prop where
  suffix : buffer.records <:+ appended
  increasing : appended.Pairwise (·.1 < ·.1)
  bounded : ∀ record ∈ appended, record.1 ≤ buffer.currentLsn ∧ record.1 < 2 ^ 64

namespace WalBuffer.Retains

variable {buffer : WalBuffer} {appended : List (Nat × Bytes)}

theorem append (retains : buffer.Retains appended) {lsn : Nat} (data : Bytes) (above : buffer.currentLsn < lsn)
    (inside : lsn < 2 ^ 64) : (buffer.append lsn data).Retains (appended ++ [(lsn, data)]) where
  suffix := by
    obtain ⟨removed, eq⟩ := retains.suffix
    exact ⟨removed, by rw [WalBuffer.append, ← append_assoc, eq]⟩
  increasing := by
    refine pairwise_append.mpr ⟨retains.increasing, pairwise_singleton _ _, ?_⟩
    intro record member last isLast
    rw [mem_singleton.mp isLast]
    exact (retains.bounded record member).1.trans_lt above
  bounded record member := by
    rcases mem_append.mp member with old | added
    · exact ⟨(retains.bounded record old).1.trans (le_max_left _ _), (retains.bounded record old).2⟩
    · rw [mem_singleton.mp added]
      exact ⟨le_max_right _ _, inside⟩

theorem mem_of_oldest_le (retains : buffer.Retains appended) {oldest : Nat} (front : buffer.oldestLsn = some oldest)
    {record : Nat × Bytes} (member : record ∈ appended) (above : oldest ≤ record.1) : record ∈ buffer.records := by
  obtain ⟨removed, eq⟩ := retains.suffix
  obtain ⟨first, head, rfl⟩ := map_eq_some_iff.mp front
  have increasing := retains.increasing
  rw [← eq] at member increasing
  rcases mem_append.mp member with gone | kept
  · have before := (pairwise_append.mp increasing).2.2 record gone first (mem_of_mem_head? head)
    omega
  · exact kept

end WalBuffer.Retains

theorem appendedRecords_append (es : List PrimaryEvent) (e : PrimaryEvent) :
    appendedRecords (es ++ [e]) = appendedRecords es ++ appendedRecords [e] := filterMap_append

theorem retains_step {es : List PrimaryEvent} {c d : QuorumCoordinator} {e : PrimaryEvent}
    (retains : c.primary.walBuffer.Retains (appendedRecords es)) (increasing : c.Increasing e)
    (taken : c.step e = some d) : d.primary.walBuffer.Retains (appendedRecords (es ++ [e])) := by
  rw [appendedRecords_append]
  cases e with
  | appendLogicalRecord lsn encoded =>
    cases taken
    exact retains.append encoded increasing.1 increasing.2
  | pruneRetainedWalThrough archivedLsn nowMs metadataDurable =>
    cases taken
    obtain ⟨suffix, current⟩ := c.primary.pruneRetainedWalThrough_walBuffer archivedLsn nowMs metadataDurable
    simp only [appendedRecords, filterMap_cons, filterMap_nil, append_nil]
    refine ⟨suffix.trans retains.suffix, retains.increasing, ?_⟩
    rw [current]
    exact retains.bounded
  | _ =>
    cases taken
    simpa [appendedRecords, planResume, bindReplicaRegion,
      unbindReplica, PrimaryReplication.registerReplicaWithRegion, PrimaryReplication.ackReplica,
      PrimaryReplication.ackReplicaLsn, PrimaryReplication.updateReplica, PrimaryReplication.advanceSlot,
      PrimaryReplication.enforceRetentionLimits] using retains

theorem retains_run {maxLag idleTimeout : Nat} {es : List PrimaryEvent} {c : QuorumCoordinator}
    (run : Run (Guarded (Steps step) QuorumCoordinator.Increasing)
      (.new (.new maxLag idleTimeout)) es c) : c.primary.walBuffer.Retains (appendedRecords es) :=
  run.invariant_history (fun es c => c.primary.walBuffer.Retains (appendedRecords es))
    (fun _ _ _ _ retains taken => retains_step retains taken.1 taken.2)
    ⟨suffix_rfl, .nil, fun _ member => by cases member⟩

def QuorumCoordinator.Resumable (c : QuorumCoordinator) (id : String) (requestedSinceLsn : Nat) : Prop :=
  ∃ slot ∈ c.primary.slots.get? id, c.primary.walBuffer.records ≠ [] ∨
    c.primary.walBuffer.currentLsn ≤ slot.restartLsn ∨ c.primary.walBuffer.currentLsn ≤ requestedSinceLsn

instance (c : QuorumCoordinator) (id : String) (requestedSinceLsn : Nat) : Decidable (c.Resumable id requestedSinceLsn) :=
  match stored : c.primary.slots.get? id with
  | none => .isFalse fun ⟨slot, found, _⟩ => by simp [stored] at found
  | some slot =>
    decidable_of_iff (c.primary.walBuffer.records ≠ [] ∨
      c.primary.walBuffer.currentLsn ≤ slot.restartLsn ∨ c.primary.walBuffer.currentLsn ≤ requestedSinceLsn) <| by
      simp [QuorumCoordinator.Resumable, stored]

theorem planReplicaResume_partial {p : PrimaryReplication} {id : String} {requestedSinceLsn nowMs resumeLsn : Nat}
    {oldest : Option Nat} {slot : ReplicationSlot} (stored : p.slots.get? id = some slot)
    (planned : (p.planReplicaResume id requestedSinceLsn oldest nowMs).1 = .partialResync resumeLsn) :
    resumeLsn = max slot.restartLsn requestedSinceLsn ∧ ∀ lsn ∈ oldest, lsn ≤ saturatingAdd resumeLsn 1 := by
  unfold PrimaryReplication.planReplicaResume PrimaryReplication.slotRebootstrapReason at planned
  rw [stored] at planned
  dsimp only at planned
  cases reason : slot.invalidationReason with
  | some cause =>
    rw [reason] at planned
    cases planned
  | none =>
    rw [reason] at planned
    dsimp only at planned
    split_ifs at planned with removed
    dsimp only at planned
    rw [SlotTable.values_find, stored] at planned
    cases planned
    refine ⟨max_comm _ _, fun lsn front => ?_⟩
    rw [mem_def.mp front, max_comm] at removed
    simpa using removed

theorem partialResync_retained {maxLag idleTimeout : Nat} {es : List PrimaryEvent} {c : QuorumCoordinator}
    (run : Run (Guarded (Steps step) QuorumCoordinator.Increasing)
      (.new (.new maxLag idleTimeout)) es c) (id : String) (requestedSinceLsn nowMs resumeLsn : Nat)
    (resumable : c.Resumable id requestedSinceLsn)
    (planned : (c.planResume id requestedSinceLsn nowMs).1 = .partialResync resumeLsn) :
    ∀ record ∈ appendedRecords es, resumeLsn < record.1 → record ∈ c.primary.walBuffer.records := by
  have retains := retains_run run
  obtain ⟨slot, stored, ready⟩ := resumable
  obtain ⟨rfl, covered⟩ := planReplicaResume_partial (mem_def.mp stored) planned
  intro record member above
  obtain ⟨current, inside⟩ := retains.bounded record member
  rcases ready with nonempty | caughtUp
  · obtain ⟨first, rest, eq⟩ := exists_cons_of_ne_nil nonempty
    have front : c.primary.walBuffer.oldestLsn = some first.1 := by
      rw [WalBuffer.oldestLsn, eq]
      rfl
    have below := covered first.1 (mem_def.mpr front)
    refine retains.mem_of_oldest_le front member ?_
    unfold saturatingAdd at below
    omega
  · omega

def resumedAfterPrune : List PrimaryEvent :=
  [.ensureReplicaRegistered "a" 0 1, .appendLogicalRecord 2 [7], .appendLogicalRecord 3 [8], .appendLogicalRecord 6 [9],
    .ackReplicaLsn "a" 2 2 0 0 2, .pruneRetainedWalThrough 6 3 true, .unregisterReplica "a",
    .ensureReplicaRegistered "a" 1 4]

theorem partialResync_retained_after_prune :
    ∃ c, Run (Guarded (Steps step) QuorumCoordinator.Increasing) (.new (.new 0 0)) resumedAfterPrune c ∧
      c.Resumable "a" 1 ∧ (c.planResume "a" 1 5).1 = .partialResync 2 ∧
      ∀ record ∈ appendedRecords resumedAfterPrune, 2 < record.1 → record ∈ c.primary.walBuffer.records := by
  obtain ⟨c, run, answers⟩ := execute_reaches step QuorumCoordinator.Increasing (.new (.new 0 0)) resumedAfterPrune
    (fun c => decide (c.Resumable "a" 1 ∧ (c.planResume "a" 1 5).1 = .partialResync 2)) (by decide +kernel)
  obtain ⟨resumable, planned⟩ := of_decide_eq_true answers
  exact ⟨c, run, resumable, planned, partialResync_retained run "a" 1 5 2 resumable planned⟩

/-- Once every record is pruned, a replica that starts at the beginning is resumed there, whether it has
a slot or not. -/
theorem partialResync_across_hole :
    ∃ es c, Run (Guarded (Steps step) QuorumCoordinator.Increasing) (.new (.new 0 0)) es c ∧
      (∃ slot, c.primary.slots.get? "a" = some slot) ∧ (c.planResume "a" 0 3).1 = .partialResync 0 ∧
      (c.planResume "b" 0 3).1 = .partialResync 0 ∧
      (5, [7]) ∈ appendedRecords es ∧ (5, [7]) ∉ c.primary.walBuffer.records := by
  obtain ⟨c, run, answers⟩ := execute_reaches step QuorumCoordinator.Increasing (.new (.new 0 0))
    [.appendLogicalRecord 5 [7], .pruneRetainedWalThrough 5 1 true, .ensureReplicaRegistered "a" 0 2]
    (fun c => decide ((c.primary.slots.get? "a").isSome = true ∧ (c.planResume "a" 0 3).1 = .partialResync 0 ∧
      (c.planResume "b" 0 3).1 = .partialResync 0 ∧ c.primary.walBuffer.records = [])) (by decide +kernel)
  obtain ⟨slot, planned, unknown, empty⟩ := of_decide_eq_true answers
  exact ⟨_, c, run, isSome_iff_exists.mp slot, planned, unknown, by decide, by simp [empty]⟩

end RedDB.Replication
