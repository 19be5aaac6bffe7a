import RedDB.Replay.Applier

namespace RedDB.Replay

open List LogicalChangeApplier TermFence

structure Delivery (E : Type) where
  record : ChangeRecord
  attempt : Except E Unit
  deriving DecidableEq, Repr

structure Replica where
  applier : LogicalChangeApplier
  applied : List ChangeRecord
  deriving DecidableEq, Repr

namespace Replica

def new (startingLsn : Nat) : Replica := ⟨.new startingLsn, []⟩

section

variable {E : Type} (sha256 : Bytes → Bytes)

variable (self : Replica)

variable (d : Delivery E)

def answer : Except (LogicalApplyError E) ApplyOutcome :=
  (self.applier.apply sha256 d.record d.attempt).1

def deliver : Replica where
  applier := (self.applier.apply sha256 d.record d.attempt).2
  applied := match self.answer sha256 d with
    | .ok .applied => self.applied ++ [d.record]
    | _ => self.applied

def deliverAll (ds : List (Delivery E)) : Replica := ds.foldl (deliver sha256) self

def Takes : Prop :=
  d.attempt = .ok () ∧ (self.applier.lastAppliedLsn = 0 ∨ d.record.lsn ≤ self.applier.lastAppliedLsn + 1)

def TakesAll (self : Replica) : List (Delivery E) → Prop
  | [] => True
  | d :: ds => self.Takes d ∧ TakesAll (self.deliver sha256 d) ds

end

variable {E : Type} {sha256 : Bytes → Bytes} {self : Replica} {d : Delivery E}

variable {failure : LogicalApplyError E} {next : LogicalChangeApplier}

theorem deliver_fenced (fenced : self.applier.apply sha256 d.record d.attempt = (.error failure, self.applier)) :
    self.deliver sha256 d = self := by
  simp [deliver, answer, fenced]

theorem deliver_applied (applied : self.applier.apply sha256 d.record d.attempt = (.ok .applied, next)) :
    self.deliver sha256 d = ⟨next, self.applied ++ [d.record]⟩ := by
  simp [deliver, answer, applied]

theorem deliver_kept {result : Except (LogicalApplyError E) ApplyOutcome} (notApplied : result ≠ .ok .applied)
    (kept : self.applier.apply sha256 d.record d.attempt = (result, next)) :
    self.deliver sha256 d = ⟨next, self.applied⟩ := by
  simp only [deliver, answer, kept]

theorem deliver_cases (sha256 : Bytes → Bytes) (self : Replica) (d : Delivery E) :
    (d.record.term < self.applier.termFence.store ∧ self.deliver sha256 d = self) ∨
    (self.applier.termFence.store ≤ d.record.term ∧ self.applier.Accepts d.record.lsn ∧
      d.attempt = .ok () ∧ self.deliver sha256 d =
        ⟨(self.applier.receive ⟨d.record.term⟩ d.record).publishApplied d.record
          (recordPayloadHash sha256 d.record), self.applied ++ [d.record]⟩) ∨
    (self.applier.termFence.store ≤ d.record.term ∧ (self.applier.Accepts d.record.lsn → d.attempt ≠ .ok ()) ∧
      self.deliver sha256 d = ⟨self.applier.receive ⟨d.record.term⟩ d.record, self.applied⟩) := by
  rcases apply_cases sha256 self.applier d.record d.attempt with
    ⟨stale, failure, eq⟩ | ⟨current, accepted, stored, eq⟩ | ⟨current, refused, result, notApplied, eq⟩
  · exact .inl ⟨stale, deliver_fenced eq⟩
  · exact .inr (.inl ⟨current, accepted, stored, deliver_applied eq⟩)
  · exact .inr (.inr ⟨current, refused, deliver_kept notApplied eq⟩)

structure Ordered (sha256 : Bytes → Bytes) (replica : Replica) : Prop where
  positions : replica.applied.IsChain fun a b => b.lsn = a.lsn + 1
  terms : replica.applied.IsChain fun a b => a.term ≤ b.term
  last : ∀ r ∈ replica.applied.getLast?, 0 < r.lsn ∧ replica.applier.lastAppliedLsn = r.lsn ∧
    replica.applier.lastAppliedTerm = r.term ∧
    replica.applier.lastPayloadHash = some (recordPayloadHash sha256 r)
  adopted : replica.applier.lastAppliedTerm ≤ replica.applier.termFence.store

theorem ordered_new (startingLsn : Nat) : Ordered sha256 (new startingLsn) where
  positions := .nil
  terms := .nil
  last := by simp [new]
  adopted := le_refl _

theorem ordered_deliver (ordered : Ordered sha256 self) (d : Delivery E) :
    Ordered sha256 (self.deliver sha256 d) := by
  rcases deliver_cases sha256 self d with
    ⟨-, eq⟩ | ⟨current, accepted, -, eq⟩ | ⟨current, -, eq⟩
  · rwa [eq]
  · rw [eq]
    refine ⟨?_, ?_, ?_, ?_⟩
    · refine isChain_append.mpr ⟨ordered.positions, .singleton _, ?_⟩
      intro last isLast r isNext
      obtain ⟨positive, position, -, -⟩ := ordered.last last isLast
      simp only [head?_cons, Option.mem_def, Option.some.injEq] at isNext
      subst isNext
      rcases accepted with ⟨empty, -⟩ | next
      · omega
      · omega
    · refine isChain_append.mpr ⟨ordered.terms, .singleton _, ?_⟩
      intro last isLast r isNext
      obtain ⟨-, -, lastTerm, -⟩ := ordered.last last isLast
      simp only [head?_cons, Option.mem_def, Option.some.injEq] at isNext
      subst isNext
      have adopted := ordered.adopted
      omega
    · intro r isLast
      simp only [getLast?_append, getLast?_singleton, Option.some_or, Option.mem_def, Option.some.injEq] at isLast
      subst isLast
      refine ⟨?_, rfl, rfl, rfl⟩
      rcases accepted with ⟨-, positive⟩ | next
      · exact positive
      · omega
    · exact le_refl _
  · rw [eq]
    exact ⟨ordered.positions, ordered.terms, ordered.last, ordered.adopted.trans current⟩

theorem ordered_deliverAll (startingLsn : Nat) (history : List (Delivery E)) :
    Ordered sha256 ((new startingLsn).deliverAll sha256 history) := by
  unfold deliverAll
  refine List.foldlRecOn history _ (ordered_new startingLsn) ?_
  intro replica ordered d _
  exact ordered_deliver ordered d

theorem Ordered.positions_nodup (ordered : Ordered sha256 self) : (self.applied.map (·.lsn)).Nodup := by
  have increasing : self.applied.IsChain fun a b => a.lsn < b.lsn := ordered.positions.imp fun a b next => by omega
  have sorted : (self.applied.map (·.lsn)).IsChain (· < ·) := (isChain_map _).mpr increasing
  exact (isChain_iff_pairwise.mp sorted).imp fun below => below.ne

theorem failed_delivery (failed : self.answer sha256 d = .error failure) :
    (self.deliver sha256 d).applier.lastAppliedLsn = self.applier.lastAppliedLsn ∧
      (self.deliver sha256 d).applier.lastAppliedTerm = self.applier.lastAppliedTerm := by
  rcases apply_cases sha256 self.applier d.record d.attempt with
    ⟨-, failure, eq⟩ | ⟨-, -, -, eq⟩ | ⟨-, -, result, notApplied, eq⟩
  · rw [deliver_fenced eq]
    exact ⟨rfl, rfl⟩
  · rw [answer, eq] at failed
    cases failed
  · rw [deliver_kept notApplied eq]
    exact ⟨rfl, rfl⟩

theorem Ordered.diverges (ordered : Ordered sha256 self) {r : ChangeRecord}
    (isLast : self.applied.getLast? = some r) (same : d.record.lsn = self.applier.lastAppliedLsn)
    (differs : sha256 r.hashedBytes ≠ sha256 d.record.hashedBytes) :
    ∃ failure, self.answer sha256 d = .error failure := by
  obtain ⟨positive, position, -, known⟩ := ordered.last r isLast
  rcases lt_or_ge d.record.term self.applier.termFence.store with stale | current
  · rw [answer, apply_stale stale]
    exact ⟨_, rfl⟩
  · rw [answer, apply_current current]
    refine applyAdmitted_diverges ?_ same known differs
    exact position ▸ positive

def Settled (self : Replica) (record : ChangeRecord) : Prop :=
  record.term < self.applier.termFence.store ∨ record.lsn ≤ self.applier.lastAppliedLsn

section

variable {record : ChangeRecord} (settled : self.Settled record)
include record settled

theorem settled_deliver (d : Delivery E) : (self.deliver sha256 d).Settled record := by
  rcases deliver_cases sha256 self d with ⟨-, eq⟩ | ⟨current, accepted, -, eq⟩ | ⟨current, -, eq⟩
  · rwa [eq]
  · rw [eq]
    rcases settled with behind | passed
    · exact .inl (behind.trans_le current)
    · have advances : self.applier.lastAppliedLsn ≤ d.record.lsn := by
        rcases accepted with ⟨empty, -⟩ | next
        · omega
        · omega
      exact .inr (passed.trans advances)
  · rw [eq]
    exact settled.imp (fun behind => behind.trans_le current) id

theorem settled_deliverAll (ds : List (Delivery E)) : (self.deliverAll sha256 ds).Settled record := by
  unfold deliverAll
  refine List.foldlRecOn (motive := fun replica : Replica => replica.Settled record) ds _ settled ?_
  intro replica kept d _
  exact settled_deliver kept d

end

theorem settled_of_takes (takes : self.Takes d) : (self.deliver sha256 d).Settled d.record := by
  obtain ⟨stored, inReach⟩ := takes
  rcases deliver_cases sha256 self d with ⟨stale, eq⟩ | ⟨-, -, -, eq⟩ | ⟨-, refused, eq⟩
  · rw [eq]
    exact .inl stale
  · rw [eq]
    exact .inr le_rfl
  · rw [eq]
    have notAccepted : ¬self.applier.Accepts d.record.lsn := fun accepted => refused accepted stored
    have notAnchor : ¬(self.applier.lastAppliedLsn = 0 ∧ 0 < d.record.lsn) := fun anchor => notAccepted (.inl anchor)
    have notNext : d.record.lsn ≠ self.applier.lastAppliedLsn + 1 := fun next => notAccepted (.inr next)
    refine .inr ?_
    simp only [receive]
    omega

theorem settled_of_takesAll {stream : List (Delivery E)} (takes : self.TakesAll sha256 stream) :
    ∀ d ∈ stream, (self.deliverAll sha256 stream).Settled d.record := by
  induction stream generalizing self with
  | nil => simp
  | cons d ds ih =>
    obtain ⟨first, rest⟩ := takes
    intro e member
    rcases mem_cons.mp member with rfl | later
    · exact settled_deliverAll (settled_of_takes first) ds
    · exact ih rest e later

theorem applied_deliver_settled (settled : self.Settled d.record) :
    (self.deliver sha256 d).applied = self.applied := by
  rcases deliver_cases sha256 self d with ⟨-, eq⟩ | ⟨current, accepted, -, eq⟩ | ⟨-, -, eq⟩
  · rw [eq]
  · exfalso
    rcases settled with behind | passed
    · omega
    · rcases accepted with ⟨empty, positive⟩ | next
      · omega
      · omega
  · rw [eq]

theorem applied_deliverAll_settled {again : List (Delivery E)} (settled : ∀ d ∈ again, self.Settled d.record) :
    (self.deliverAll sha256 again).applied = self.applied := by
  induction again generalizing self with
  | nil => rfl
  | cons d ds ih =>
    have rest : ∀ e ∈ ds, (self.deliver sha256 d).Settled e.record :=
      fun e member => settled_deliver (settled e (mem_cons_of_mem _ member)) d
    exact (ih rest).trans (applied_deliver_settled (settled d mem_cons_self))

def CollisionFree (sha256 : Bytes → Bytes) (a b : Bytes) : Prop := sha256 a = sha256 b → a = b

/-- Records are applied in order, once and with rising terms, whatever is delivered. A record at the last
applied position is refused if the bytes the payload hash covers differ, and a stream delivered without
skipping a position is not applied again. -/
theorem applied_in_order (sha256 : Bytes → Bytes) (startingLsn : Nat) (history : List (Delivery E)) :
    let replica := (new startingLsn).deliverAll sha256 history
    (replica.applied.IsChain fun a b => b.lsn = a.lsn + 1) ∧
    (replica.applied.map (·.lsn)).Nodup ∧
    (replica.applied.IsChain fun a b => a.term ≤ b.term) ∧
    (∀ (d : Delivery E) (failure : LogicalApplyError E), replica.answer sha256 d = .error failure →
      (replica.deliver sha256 d).applier.lastAppliedLsn = replica.applier.lastAppliedLsn ∧
        (replica.deliver sha256 d).applier.lastAppliedTerm = replica.applier.lastAppliedTerm) ∧
    (∀ (r : ChangeRecord) (d : Delivery E), replica.applied.getLast? = some r →
      d.record.lsn = replica.applier.lastAppliedLsn → r.hashedBytes ≠ d.record.hashedBytes →
      CollisionFree sha256 r.hashedBytes d.record.hashedBytes → ∃ failure, replica.answer sha256 d = .error failure) ∧
    (∀ stream meanwhile again : List (Delivery E), replica.TakesAll sha256 stream →
      again.map (·.record) <+: stream.map (·.record) →
      let later := (replica.deliverAll sha256 stream).deliverAll sha256 meanwhile
      (later.deliverAll sha256 again).applied = later.applied) := by
  intro replica
  have ordered : Ordered sha256 replica := ordered_deliverAll startingLsn history
  refine ⟨ordered.positions, ordered.positions_nodup, ordered.terms, ?_, ?_, ?_⟩
  · intro d failure failed
    exact failed_delivery failed
  · intro r d isLast same differs collisionFree
    exact ordered.diverges isLast same fun equal => differs (collisionFree equal)
  · intro stream meanwhile again takes redelivered later
    refine applied_deliverAll_settled fun d member => settled_deliverAll ?_ meanwhile
    have inStream : d.record ∈ stream.map (·.record) := redelivered.subset (mem_map_of_mem member)
    obtain ⟨first, firstMember, same⟩ := mem_map.mp inStream
    rw [← same]
    exact settled_of_takesAll takes first firstMember

def rowAt (lsn : Nat) (entityBytes : Bytes) (metadata : Option String) : ChangeRecord where
  term := 1
  lsn := lsn
  timestamp := 100 + lsn
  operation := .insert
  collection := "users"
  entityId := lsn
  entityKind := "row"
  entityBytes := some entityBytes
  metadata := metadata
  refreshRecords := none
  rangeId := none
  ownershipEpoch := none

def stored (record : ChangeRecord) : Delivery String := ⟨record, .ok ()⟩

/-- After a row at position 6, another row there diverges, and the rows at 6 and 7 are not applied again. -/
theorem applied_in_order_after_six :
    let replica := (new 5).deliverAll id [stored (rowAt 6 [1] none)]
    let later := replica.deliverAll id [stored (rowAt 7 [2] none)]
    (∃ failure, replica.answer id (stored (rowAt 6 [9] none)) = .error failure) ∧
      (later.deliverAll id [stored (rowAt 7 [2] none)]).applied = later.applied := by
  have holds := applied_in_order id 5 [stored (rowAt 6 [1] none)]
  obtain ⟨-, -, -, -, diverges, settled⟩ := holds
  constructor
  · exact diverges (rowAt 6 [1] none) (stored (rowAt 6 [9] none)) (by decide +kernel) (by decide +kernel)
      (by decide +kernel) id
  · exact settled [stored (rowAt 7 [2] none)] [] [stored (rowAt 7 [2] none)]
      ⟨⟨rfl, by decide +kernel⟩, trivial⟩ (prefix_refl _)

/-- Two rows that differ in their metadata only are one to the applier, whatever the hash; and a record
that came before its predecessor is applied when it is delivered again. -/
theorem metadata_not_compared : (∀ sha256 : Bytes → Bytes,
      let replica := (new 5).deliverAll sha256 [stored (rowAt 6 [1] (some "1"))]
      replica.applied = [rowAt 6 [1] (some "1")] ∧
        replica.answer sha256 (stored (rowAt 6 [1] (some "2"))) = .ok .idempotent) ∧
    (let stream := [stored (rowAt 7 [2] none), stored (rowAt 6 [1] none)]
      let replica := (new 5).deliverAll id stream
      replica.applied = [rowAt 6 [1] none] ∧
        (replica.deliverAll id (stream.take 1)).applied = [rowAt 6 [1] none, rowAt 7 [2] none]) := by
  refine ⟨fun sha256 => ⟨rfl, ?_⟩, by decide +kernel⟩
  simp [answer, deliverAll, deliver, new, stored, rowAt, LogicalChangeApplier.new, apply, applyFenced,
    applyUnfencedRange, applyAdmitted, applyAndPublish, publishApplied, receive, admitRecord, TermFence.admit, classify,
    termIsStale, defaultReplicationTerm, recordPayloadHash, ChangeRecord.hashedBytes]

end Replica

end RedDB.Replay
