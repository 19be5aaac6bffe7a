import RedDB.Library.Quorum
import RedDB.Replication.Primary

namespace RedDB.Replication

open List Library ReplicationSlot DurableLsns SortedMap

/-- The event is the report of `id` that everything through `lsn` is durable there. -/
def PrimaryEvent.Acknowledges (id : String) (lsn : Nat) : PrimaryEvent → Prop
  | .ackReplica replica durable _ => replica = id ∧ lsn ≤ durable
  | .ackReplicaLsn replica _ durable _ _ _ => replica = id ∧ lsn ≤ durable
  | _ => False

/-- `id` acknowledged `lsn` in the run; nothing has to be acknowledged for position 0. -/
def Backed (es : List PrimaryEvent) (id : String) (lsn : Nat) : Prop := lsn = 0 ∨ ∃ e ∈ es, e.Acknowledges id lsn

variable {id : String} {lsn : Nat}

theorem PrimaryEvent.Acknowledges.le {lower : Nat} {e : PrimaryEvent}
    (acknowledged : e.Acknowledges id lsn) (below : lower ≤ lsn) : e.Acknowledges id lower := by
  cases e with
  | ackReplica | ackReplicaLsn => exact ⟨acknowledged.1, below.trans acknowledged.2⟩
  | _ => exact acknowledged.elim

variable {es : List PrimaryEvent}

theorem Backed.later (backed : Backed es id lsn) (e : PrimaryEvent) : Backed (es ++ [e]) id lsn := by
  rcases backed with zero | ⟨f, member, acknowledged⟩
  · exact .inl zero
  · exact .inr ⟨f, mem_append_left _ member, acknowledged⟩

theorem Backed.now {e : PrimaryEvent} (acknowledged : e.Acknowledges id lsn) : Backed (es ++ [e]) id lsn :=
  .inr ⟨e, by simp, acknowledged⟩

theorem Backed.max {a b : Nat} (left : Backed es id a) (right : Backed es id b) : Backed es id (max a b) := by
  rcases max_choice a b with same | same
  · rwa [same]
  · rwa [same]

/-- The position is an acknowledged one, if every slot of the run was created at position 0 (`origin`). -/
def Resumed (origin : Prop) (es : List PrimaryEvent) (id : String) (lsn : Nat) : Prop := origin → Backed es id lsn

variable {origin : Prop}

theorem Resumed.later (resumed : Resumed origin es id lsn) (e : PrimaryEvent) : Resumed origin (es ++ [e]) id lsn :=
  fun zero => (resumed zero).later e

theorem Backed.resumed (backed : Backed es id lsn) : Resumed origin es id lsn := fun _ => backed

theorem Resumed.max {a b : Nat} (left : Resumed origin es id a) (right : Backed es id b) :
    Resumed origin es id (max a b) := fun zero => (left zero).max right

/-- The waiter of a primary holds only acknowledged positions of registered replicas. The positions of replicas and
slots also go back to the one a slot was created at. -/
structure PrimaryReplication.Grounded (origin : Prop) (es : List PrimaryEvent) (p : PrimaryReplication) : Prop where
  waiter : ∀ {id lsn}, p.commitWaiter.get? id = some lsn → p.registered id ∧ Backed es id lsn
  replicas : ∀ r ∈ p.replicas, Resumed origin es r.id r.lastDurableLsn
  slots : ∀ {id slot}, p.slots.get? id = some slot → Resumed origin es id slot.restartLsn

/-- Reports come from registered replicas only. -/
def QuorumCoordinator.Reporting (c : QuorumCoordinator) : PrimaryEvent → Prop
  | .ackReplica id _ _ => c.primary.registered id
  | .ackReplicaLsn id _ _ _ _ _ => c.primary.registered id
  | _ => True

/-- Moreover a new slot is created at position 0. -/
def QuorumCoordinator.Attested (c : QuorumCoordinator) : PrimaryEvent → Prop
  | .ackReplica id _ _ => c.primary.registered id
  | .ackReplicaLsn id _ _ _ _ _ => c.primary.registered id
  | .registerReplicaWithRegion id _ _ => (c.primary.slots.get? id).isSome ∨ c.primary.walBuffer.currentLsn = 0
  | .ensureReplicaRegistered id requestedSinceLsn _ =>
    c.primary.registered id ∨ (c.primary.slots.get? id).isSome ∨ requestedSinceLsn = 0
  | _ => True

instance (c : QuorumCoordinator) (e : PrimaryEvent) : Decidable (c.Attested e) :=
  match e with
  | .ackReplica id _ _ => inferInstanceAs (Decidable (c.primary.registered id))
  | .ackReplicaLsn id _ _ _ _ _ => inferInstanceAs (Decidable (c.primary.registered id))
  | .registerReplicaWithRegion id _ _ =>
    inferInstanceAs (Decidable ((c.primary.slots.get? id).isSome ∨ c.primary.walBuffer.currentLsn = 0))
  | .ensureReplicaRegistered id requestedSinceLsn _ =>
    inferInstanceAs (Decidable (c.primary.registered id ∨ (c.primary.slots.get? id).isSome ∨ requestedSinceLsn = 0))
  | .appendLogicalRecord _ _ | .unregisterReplica _ | .noteReplicaPull _ _ _ | .bindReplicaRegion _ _
  | .unbindReplica _ | .enforceRetentionLimits _ | .pruneRetainedWalThrough _ _ _ | .planReplicaResume _ _ _ =>
    inferInstanceAs (Decidable True)

theorem QuorumCoordinator.Attested.reporting {c : QuorumCoordinator} {e : PrimaryEvent} (attested : c.Attested e) :
    c.Reporting e := by
  cases e with
  | ackReplica | ackReplicaLsn => exact attested
  | _ => trivial

namespace PrimaryReplication

variable {id : String}

variable {f : ReplicaState → ReplicaState}

theorem mem_updateFirst {replicas : List ReplicaState} {r : ReplicaState} (member : r ∈ updateFirst id f replicas) :
    r ∈ replicas ∨ ∃ old ∈ replicas, old.id = id ∧ r = f old := by
  induction replicas with
  | nil => exact .inl member
  | cons first rest ih =>
    simp only [updateFirst] at member
    split_ifs at member with same
    · rcases mem_cons.mp member with rfl | later
      · exact .inr ⟨first, mem_cons_self, same, rfl⟩
      · exact .inl (mem_cons_of_mem _ later)
    · rcases mem_cons.mp member with rfl | later
      · exact .inl mem_cons_self
      · rcases ih later with old | ⟨old, inside, named, eq⟩
        · exact .inl (mem_cons_of_mem _ old)
        · exact .inr ⟨old, mem_cons_of_mem _ inside, named, eq⟩

theorem map_id_updateFirst (keeps : ∀ r, (f r).id = r.id)
    (replicas : List ReplicaState) : (updateFirst id f replicas).map ReplicaState.id = replicas.map ReplicaState.id := by
  induction replicas with
  | nil => rfl
  | cons first rest ih =>
    simp only [updateFirst]
    split_ifs with same
    · simp [keeps]
    · simp [ih]

theorem registered_iff {p : PrimaryReplication} : p.registered id = true ↔ id ∈ p.replicas.map ReplicaState.id := by
  simp [registered]

theorem registered_updateReplica (p : PrimaryReplication) (id j : String)
    (keeps : ∀ r, (f r).id = r.id) : (p.updateReplica id f).registered j = p.registered j := by
  rw [Bool.eq_iff_iff, registered_iff, registered_iff, updateReplica, map_id_updateFirst keeps]

namespace Grounded

variable {origin : Prop} {es : List PrimaryEvent} {p : PrimaryReplication} {id : String}

theorem later (grounded : p.Grounded origin es) (e : PrimaryEvent) : p.Grounded origin (es ++ [e]) where
  waiter found := ⟨(grounded.waiter found).1, (grounded.waiter found).2.later e⟩
  replicas r member := (grounded.replicas r member).later e
  slots found := (grounded.slots found).later e

theorem new (maxLag idleTimeout : Nat) : (PrimaryReplication.new maxLag idleTimeout).Grounded origin [] where
  waiter found := by cases found
  replicas r member := by cases member
  slots found := by cases found

section

variable (grounded : p.Grounded origin es)
include grounded

theorem updateReplica (id : String) {f : ReplicaState → ReplicaState} (keeps : ∀ r, (f r).id = r.id)
    (backed : ∀ r ∈ p.replicas, r.id = id → Resumed origin es id (f r).lastDurableLsn) :
    (p.updateReplica id f).Grounded origin es where
  waiter found := by
    obtain ⟨present, acknowledged⟩ := grounded.waiter found
    refine ⟨?_, acknowledged⟩
    rwa [registered_updateReplica p id _ keeps]
  replicas r member := by
    rcases mem_updateFirst member with old | ⟨old, inside, named, rfl⟩
    · exact grounded.replicas r old
    · rw [keeps, named]
      exact backed old inside named
  slots found := grounded.slots found

theorem putSlot {slot : ReplicationSlot} (backed : Resumed origin es slot.replicaId slot.restartLsn) :
    Grounded origin es { p with slots := p.slots.put slot } where
  waiter found := grounded.waiter found
  replicas r member := grounded.replicas r member
  slots {j other} found := by
    rw [SlotTable.get?_put] at found
    split_ifs at found with same
    · cases found
      rwa [same]
    · exact grounded.slots found

theorem recordAck {lsn : Nat} (present : p.registered id) (acknowledged : Backed es id lsn) :
    Grounded origin es { p with commitWaiter := p.commitWaiter.recordReplicaAck id lsn } where
  waiter {j value} found := by
    simp only [recordReplicaAck, get?_insert] at found
    split_ifs at found with same higher
    · cases found
      exact ⟨same ▸ present, same ▸ acknowledged⟩
    · cases found
      refine ⟨same ▸ present, ?_⟩
      cases stored : p.commitWaiter.get? id with
      | none => exact .inl rfl
      | some entry => exact same ▸ (grounded.waiter stored).2
    · exact grounded.waiter found
  replicas r member := grounded.replicas r member
  slots found := grounded.slots found

theorem ensureSlot {initialLsn : Nat} (nowMs : Nat) (fresh : p.slots.get? id = none → Resumed origin es id initialLsn) :
    (p.ensureSlot id initialLsn nowMs).2.Grounded origin es ∧ Resumed origin es id (p.ensureSlot id initialLsn nowMs).1 := by
  unfold PrimaryReplication.ensureSlot
  cases stored : p.slots.get? id with
  | none => exact ⟨grounded.putSlot (fresh stored), fresh stored⟩
  | some slot =>
    have backed := grounded.slots stored
    refine ⟨grounded.putSlot ?_, backed⟩
    rwa [seen_replicaId, seen_restartLsn, p.slots.keyed stored]

end

variable {nowMs : Nat}

section

variable (grounded : p.Grounded origin es)
include grounded

theorem registerReplicaWithRegionAt {region : Option String} {initialLsn : Nat}
    (fresh : p.slots.get? id = none → Resumed origin es id initialLsn) :
    (p.registerReplicaWithRegionAt id region initialLsn nowMs).Grounded origin es := by
  obtain ⟨kept, resume⟩ := grounded.ensureSlot nowMs fresh
  unfold PrimaryReplication.registerReplicaWithRegionAt
  generalize p.ensureSlot id initialLsn nowMs = ensured at kept resume
  obtain ⟨resumeLsn, q⟩ := ensured
  dsimp only
  split_ifs with present
  · exact kept.updateReplica id (fun _ => rfl) fun r member named => named ▸ kept.replicas r member
  · exact {
      waiter := fun found => by
        obtain ⟨known, acknowledged⟩ := kept.waiter found
        refine ⟨?_, acknowledged⟩
        rw [registered_iff] at known ⊢
        simpa [bumpTopologyEpoch] using Or.inl (mem_map.mp known)
      replicas := fun r member => by
        rcases mem_append.mp member with old | added
        · exact kept.replicas r old
        · rw [mem_singleton.mp added]
          exact resume
      slots := kept.slots }

theorem unregisterReplica : (p.unregisterReplica id).Grounded origin es := by
  have others : ∀ j, j ≠ id → p.registered j →
      j ∈ (p.replicas.filter fun r => decide (r.id ≠ id)).map ReplicaState.id := by
    intro j other present
    obtain ⟨r, member, rfl⟩ := mem_map.mp (registered_iff.mp present)
    exact mem_map.mpr ⟨r, mem_filter.mpr ⟨member, decide_eq_true other⟩, rfl⟩
  unfold PrimaryReplication.unregisterReplica
  dsimp only
  split_ifs with removed
  · exact {
      waiter := fun {j lsn} found => by
        rw [bumpTopologyEpoch, dropReplica, get?_filterKeys] at found
        split_ifs at found with other
        obtain ⟨present, acknowledged⟩ := grounded.waiter found
        exact ⟨registered_iff.mpr (others j (of_decide_eq_true other) present), acknowledged⟩
      replicas := fun r member => grounded.replicas r (mem_filter.mp member).1
      slots := grounded.slots }
  · have same : p.replicas.filter (fun r => decide (r.id ≠ id)) = p.replicas :=
      filter_sublist.eq_of_length (not_not.mp removed)
    rw [same]
    exact grounded

theorem ackReplica {lsn : Nat} (present : p.registered id)
    (acknowledged : Backed es id lsn) : (p.ackReplica id lsn nowMs).Grounded origin es := by
  have updated := grounded.updateReplica id (f := fun r =>
    { r with
      lastAckedLsn := max r.lastAckedLsn lsn
      lastDurableLsn := max r.lastDurableLsn lsn
      lastSeenAtUnixMs := nowMs }) (fun _ => rfl)
    fun r member named => (named ▸ grounded.replicas r member).max acknowledged
  refine updated.recordAck ?_ acknowledged
  rw [registered_updateReplica]
  · exact present
  · exact fun _ => rfl

theorem advanceSlot {restartLsn : Nat} (confirmedLsn nowMs : Nat)
    (acknowledged : Resumed origin es id restartLsn) : (p.advanceSlot id confirmedLsn restartLsn nowMs).Grounded origin es := by
  have slot : ∃ slot, (p.slots.get? id).getD ((ReplicationSlot.new id 0).seen nowMs) = slot ∧
      slot.replicaId = id ∧ Resumed origin es id slot.restartLsn := by
    cases stored : p.slots.get? id with
    | none => exact ⟨_, rfl, rfl, fun _ => .inl rfl⟩
    | some slot => exact ⟨slot, rfl, p.slots.keyed stored, grounded.slots stored⟩
  obtain ⟨slot, eq, named, backed⟩ := slot
  unfold PrimaryReplication.advanceSlot
  rw [eq]
  refine grounded.putSlot ?_
  rw [advance_replicaId, named]
  rcases slot.advance_restartLsn confirmedLsn restartLsn nowMs with same | same
  · rwa [same]
  · rwa [same]

theorem ackReplicaLsn {appliedLsn durableLsn applyErrorCount divergenceCount : Nat}
    (present : p.registered id) (acknowledged : Backed es id durableLsn) :
    (p.ackReplicaLsn id appliedLsn durableLsn applyErrorCount divergenceCount nowMs).Grounded origin es := by
  have advanced := grounded.advanceSlot appliedLsn nowMs acknowledged.resumed
  have updated := advanced.updateReplica id (f := fun r =>
    { r with
      lastAckedLsn := max r.lastAckedLsn appliedLsn
      lastDurableLsn := max r.lastDurableLsn durableLsn
      applyErrorCount := max r.applyErrorCount applyErrorCount
      divergenceCount := max r.divergenceCount divergenceCount
      lastSeenAtUnixMs := nowMs }) (fun _ => rfl)
    fun r member named => (named ▸ grounded.replicas r member).max acknowledged
  refine updated.recordAck ?_ acknowledged
  rw [registered_updateReplica]
  · exact present
  · exact fun _ => rfl

theorem noteReplicaPull {lastSentLsn : Nat} : (p.noteReplicaPull id lastSentLsn nowMs).Grounded origin es := by
  have touched : (p.touchSlot id nowMs).Grounded origin es := by
    unfold PrimaryReplication.touchSlot
    cases stored : p.slots.get? id with
    | none => exact grounded
    | some slot =>
      refine grounded.putSlot ?_
      rw [touch_replicaId, touch_restartLsn, p.slots.keyed stored]
      exact grounded.slots stored
  exact touched.updateReplica id (fun _ => rfl) fun r member named => named ▸ touched.replicas r member

theorem enforceRetentionLimits (nowMs : Nat) : (p.enforceRetentionLimits nowMs).Grounded origin es where
  waiter found := grounded.waiter found
  replicas r member := grounded.replicas r member
  slots {j slot} found := by
    rw [PrimaryReplication.enforceRetentionLimits, SlotTable.get?_map, Option.map_eq_some_iff] at found
    obtain ⟨old, stored, rfl⟩ := found
    rw [enforce_restartLsn]
    exact grounded.slots stored

theorem withBuffer (walBuffer : WalBuffer) : Grounded origin es { p with walBuffer := walBuffer } where
  waiter found := grounded.waiter found
  replicas r member := grounded.replicas r member
  slots found := grounded.slots found

theorem pruneRetainedWalThrough {archivedLsn : Nat} {metadataDurable : Bool} :
    (p.pruneRetainedWalThrough archivedLsn nowMs metadataDurable).Grounded origin es := by
  have enforced := grounded.enforceRetentionLimits nowMs
  unfold PrimaryReplication.pruneRetainedWalThrough
  dsimp only
  split_ifs
  · exact enforced.withBuffer _
  · exact enforced

theorem planReplicaResume {requestedSinceLsn : Nat} {oldest : Option Nat} :
    (p.planReplicaResume id requestedSinceLsn oldest nowMs).2.Grounded origin es := by
  have checked : (p.slotRebootstrapReason id requestedSinceLsn oldest nowMs).2.Grounded origin es := by
    unfold PrimaryReplication.slotRebootstrapReason
    cases stored : p.slots.get? id with
    | none => exact grounded
    | some slot =>
      dsimp only
      split
      · exact grounded
      · split_ifs
        · refine grounded.putSlot ?_
          rw [invalidated_replicaId, invalidated_restartLsn, p.slots.keyed stored]
          exact grounded.slots stored
        · exact grounded
  unfold PrimaryReplication.planReplicaResume
  generalize p.slotRebootstrapReason id requestedSinceLsn oldest nowMs = answer at checked
  obtain ⟨cause, q⟩ := answer
  cases cause with
  | none | some cause => exact ⟨checked.waiter, checked.replicas, checked.slots⟩

end

end Grounded

end PrimaryReplication

open PrimaryReplication

variable {es : List PrimaryEvent}

theorem grounded_step {origin : Prop} {c d : QuorumCoordinator} {e : PrimaryEvent}
    (grounded : c.primary.Grounded origin es) (reporting : c.Reporting e) (attested : origin → c.Attested e) (taken : c.step e = some d) :
    d.primary.Grounded origin (es ++ [e]) := by
  have kept := grounded.later e
  cases e with
  | appendLogicalRecord lsn encoded =>
    cases taken
    exact kept.withBuffer _
  | registerReplicaWithRegion id region nowMs =>
    cases taken
    refine kept.registerReplicaWithRegionAt fun fresh zero => .inl ?_
    rcases attested zero with known | zero
    · rw [fresh] at known
      cases known
    · exact zero
  | ensureReplicaRegistered id requestedSinceLsn nowMs =>
    cases taken
    unfold ensureReplicaRegistered
    split_ifs with present
    · exact kept
    · refine kept.registerReplicaWithRegionAt fun fresh zero => .inl ?_
      rcases attested zero with known | known | zero
      · exact absurd known present
      · rw [fresh] at known
        cases known
      · exact zero
  | unregisterReplica id =>
    cases taken
    exact kept.unregisterReplica
  | ackReplica id lsn nowMs =>
    cases taken
    exact kept.ackReplica reporting (.now ⟨rfl, le_refl _⟩)
  | ackReplicaLsn id appliedLsn durableLsn applyErrorCount divergenceCount nowMs =>
    cases taken
    exact kept.ackReplicaLsn reporting (.now ⟨rfl, le_refl _⟩)
  | noteReplicaPull id lastSentLsn nowMs =>
    cases taken
    exact kept.noteReplicaPull
  | bindReplicaRegion id region | unbindReplica id =>
    cases taken
    exact kept
  | enforceRetentionLimits nowMs =>
    cases taken
    exact kept.enforceRetentionLimits nowMs
  | pruneRetainedWalThrough archivedLsn nowMs metadataDurable =>
    cases taken
    exact kept.pruneRetainedWalThrough
  | planReplicaResume id requestedSinceLsn nowMs =>
    cases taken
    exact kept.planReplicaResume

theorem grounded_run {origin : Prop} {guard : QuorumCoordinator → PrimaryEvent → Prop} {maxLag idleTimeout : Nat}
    {c : QuorumCoordinator} (reporting : ∀ c e, guard c e → c.Reporting e)
    (attested : origin → ∀ c e, guard c e → c.Attested e)
    (run : Run (Guarded (Steps QuorumCoordinator.step) guard) (.new (.new maxLag idleTimeout)) es c) :
    c.primary.Grounded origin es :=
  run.invariant_history (fun es c => c.primary.Grounded origin es)
    (fun _ c e _ grounded taken =>
      grounded_step grounded (reporting c e taken.1) (fun zero => attested zero c e taken.1) taken.2)
    (.new maxLag idleTimeout)

theorem DurableLsns.commitWatermark_members {durable : DurableLsns} {target required : Nat} (positive : 0 < target)
    (reached : target ≤ durable.commitWatermark required) :
    ∃ ids : List String, ids.Nodup ∧ required ≤ ids.length ∧
      ∀ id ∈ ids, ∃ lsn, target ≤ lsn ∧ durable.get? id = some lsn := by
  let past := durable.entries.filter fun entry => decide (target ≤ entry.2)
  refine ⟨past.map Prod.fst, (durable.keys_nodup.sublist (filter_sublist.map _)), ?_, ?_⟩
  · unfold commitWatermark at reached
    split_ifs at reached with absent
    · omega
    · obtain ⟨positiveRequired, enough⟩ := not_or.mp absent
      cases ranked : (durable.values.insertionSort (· ≥ ·))[required - 1]? with
      | none =>
        rw [ranked, Option.getD_none] at reached
        omega
      | some lsn =>
        rw [ranked, Option.getD_some] at reached
        have count := rank_lt_countP ranked reached
        rw [values, countP_map, countP_eq_length_filter] at count
        rw [length_map]
        have same : past = durable.entries.filter ((fun lsn => decide (target ≤ lsn)) ∘ Prod.snd) := rfl
        rw [same]
        omega
  · intro id member
    obtain ⟨⟨id, lsn⟩, inside, rfl⟩ := mem_map.mp member
    obtain ⟨stored, high⟩ := mem_filter.mp inside
    exact ⟨lsn, of_decide_eq_true high, mem_entries.mp stored⟩

/-- The replica is registered and reported everything through `target` as durable. -/
def QuorumCoordinator.Durable (c : QuorumCoordinator) (es : List PrimaryEvent) (target : Nat) (id : String) : Prop :=
  c.primary.registered id ∧ ∃ e ∈ es, e.Acknowledges id target

theorem Backed.reported {id : String} {lsn target : Nat} (backed : Backed es id lsn)
    (positive : 0 < target) (high : target ≤ lsn) : ∃ e ∈ es, e.Acknowledges id target := by
  rcases backed with zero | ⟨e, member, acknowledged⟩
  · omega
  · exact ⟨e, member, acknowledged.le high⟩

/-- An answered wait has its acknowledgements if all reports come from registered replicas, and a region quorum if
moreover new slots are created at position 0. -/
theorem quorum_of_attested {maxLag idleTimeout : Nat} {es : List PrimaryEvent} {c : QuorumCoordinator}
    (target : Nat) (positive : 0 < target) :
    (Run (Guarded (Steps QuorumCoordinator.step) QuorumCoordinator.Reporting) (.new (.new maxLag idleTimeout)) es c →
      ∀ required expired observed, 1 ≤ required →
      c.primary.commitWaiter.awaitAcks target required expired = some (.reached observed) →
      ∃ ids : List String, ids.Nodup ∧ required ≤ ids.length ∧ ∀ id ∈ ids, c.Durable es target id) ∧
    (Run (Guarded (Steps QuorumCoordinator.step) QuorumCoordinator.Attested) (.new (.new maxLag idleTimeout)) es c →
      ∀ required, c.hasQuorum (.regions required) target = true →
      ∀ region ∈ required, ∃ id, c.regions.get? id = some region ∧ c.Durable es target id) := by
  constructor
  · intro run required expired observed some_ answered
    have grounded : c.primary.Grounded False es :=
      grounded_run (fun _ _ reporting => reporting) False.elim run
    unfold awaitAcks at answered
    split_ifs at answered with none_ reached
    · omega
    · obtain ⟨ids, distinct, enough, members⟩ := commitWatermark_members positive reached
      refine ⟨ids, distinct, enough, fun id member => ?_⟩
      obtain ⟨lsn, high, stored⟩ := members id member
      obtain ⟨present, backed⟩ := grounded.waiter stored
      exact ⟨present, backed.reported positive high⟩
    · cases answered
  · intro run required quorum region member
    have grounded : c.primary.Grounded True es :=
      grounded_run (fun _ _ attested => attested.reporting) (fun _ _ _ attested => attested) run
    have acked := all_eq_true.mp quorum region member
    obtain ⟨r, inside, bound⟩ := mem_filterMap.mp (contains_iff_mem.mp acked)
    obtain ⟨present, high⟩ := mem_filter.mp inside
    have backed := grounded.replicas r present trivial
    refine ⟨r.id, bound, ?_, backed.reported positive (of_decide_eq_true high)⟩
    exact registered_iff.mpr (mem_map_of_mem present)

def attestedReports : List PrimaryEvent :=
  [.ensureReplicaRegistered "a" 0 1, .bindReplicaRegion "a" "eu", .registerReplicaWithRegion "b" none 1,
    .appendLogicalRecord 3 [7], .ackReplicaLsn "a" 3 3 0 0 2, .unregisterReplica "a", .ensureReplicaRegistered "a" 3 3,
    .ackReplica "b" 3 4, .ackReplica "a" 2 4, .ackReplica "a" 4 5]

theorem quorum_of_attested_reports :
    ∃ c, Run (Guarded (Steps QuorumCoordinator.step) QuorumCoordinator.Attested) (.new (.new 0 0)) attestedReports c ∧
      c.primary.commitWaiter.awaitAcks 3 2 false = some (.reached 2) ∧
      c.hasQuorum (.regions ["eu"]) 3 = true ∧
      (∃ ids : List String, ids.Nodup ∧ 2 ≤ ids.length ∧ ∀ id ∈ ids, c.Durable attestedReports 3 id) ∧
      ∃ id, c.regions.get? id = some "eu" ∧ c.Durable attestedReports 3 id := by
  obtain ⟨c, run, answers⟩ := execute_reaches QuorumCoordinator.step QuorumCoordinator.Attested
    (.new (.new 0 0)) attestedReports
    (fun c => decide (c.primary.commitWaiter.awaitAcks 3 2 false = some (.reached 2)) &&
      c.hasQuorum (.regions ["eu"]) 3) (by decide +kernel)
  obtain ⟨reached, quorum⟩ := Bool.and_eq_true_iff.mp answers
  have reached := of_decide_eq_true reached
  have reports : Run (Guarded (Steps QuorumCoordinator.step) QuorumCoordinator.Reporting) (.new (.new 0 0))
      attestedReports c := run.mono fun _ _ _ taken => ⟨taken.1.reporting, taken.2⟩
  obtain ⟨acks, regions⟩ := quorum_of_attested 3 (by decide)
  exact ⟨c, run, reached, quorum, acks reports 2 false 2 (by decide) reached, regions run _ quorum "eu" (by decide)⟩

/-- A report that arrives after its replica has left is counted, and a replica that registers counts
for its region with the position it registered at. -/
theorem unattested_quorum : (∃ es c, Run (Steps QuorumCoordinator.step) (.new (.new 0 0)) es c ∧
      c.primary.commitWaiter.awaitAcks 5 1 false = some (.reached 1) ∧ ∀ id, ¬ c.Durable es 5 id) ∧
    ∃ es c, Run (Steps QuorumCoordinator.step) (.new (.new 0 0)) es c ∧
      c.hasQuorum (.regions ["eu"]) 5 = true ∧ ∀ id, ¬ c.Durable es 5 id := by
  constructor
  · obtain ⟨c, run, answers⟩ := execute_reaches QuorumCoordinator.step (fun _ _ => True) (.new (.new 0 0))
      [.registerReplicaWithRegion "a" none 1, .unregisterReplica "a", .ackReplicaLsn "a" 5 5 0 0 2]
      (fun c => decide (c.primary.commitWaiter.awaitAcks 5 1 false = some (.reached 1) ∧ c.primary.replicas = []))
      (by decide +kernel)
    obtain ⟨reached, empty⟩ := of_decide_eq_true answers
    refine ⟨_, c, run.mono fun _ _ _ taken => taken.2, reached, fun id durable => ?_⟩
    have present := durable.1
    rw [registered_iff, empty] at present
    cases present
  · obtain ⟨c, run, answers⟩ := execute_reaches QuorumCoordinator.step (fun _ _ => True) (.new (.new 0 0))
      [.appendLogicalRecord 5 [7], .registerReplicaWithRegion "a" none 1, .bindReplicaRegion "a" "eu"]
      (fun c => c.hasQuorum (.regions ["eu"]) 5) (by decide +kernel)
    refine ⟨_, c, run.mono fun _ _ _ taken => taken.2, answers, fun id durable => ?_⟩
    obtain ⟨e, member, acknowledged⟩ := durable.2
    simp only [mem_cons, not_mem_nil, or_false] at member
    rcases member with rfl | rfl | rfl
    · exact acknowledged
    · exact acknowledged
    · exact acknowledged

end RedDB.Replication
