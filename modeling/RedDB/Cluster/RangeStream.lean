import RedDB.Replay.Applier

namespace RedDB.Cluster

open List Replay

structure RangeStreamPosition where
  rangeId : Nat
  appliedLsn : Nat
  acceptedTerm : Nat
  acceptedEpoch : Nat
  deriving DecidableEq, Repr

namespace RangeStreamPosition

variable (self : RangeStreamPosition)

def authority : RangeAuthority := ⟨self.rangeId, self.acceptedTerm, self.acceptedEpoch⟩

def advance (record : ChangeRecord) : RangeStreamPosition :=
  if record.rangeId ≠ some self.rangeId ∨ record.lsn ≤ self.appliedLsn then self
  else
    { self with
      appliedLsn := record.lsn
      acceptedTerm := if self.acceptedTerm < record.term then record.term else self.acceptedTerm
      acceptedEpoch := match record.ownershipEpoch with
        | some epoch => if self.acceptedEpoch < epoch then epoch else self.acceptedEpoch
        | none => self.acceptedEpoch }

end RangeStreamPosition

inductive RangeStreamDecision
  | apply
  | skipOtherRange
  | skipReplayed
  | reject (error : RangeAdmitError)
  deriving DecidableEq, Repr

def classifyRangeRecord (position : RangeStreamPosition) (record : ChangeRecord) : RangeStreamDecision :=
  if record.rangeId ≠ some position.rangeId then .skipOtherRange
  else if record.lsn ≤ position.appliedLsn then .skipReplayed
  else
    match position.authority.admit record with
    | .ok () => .apply
    | .error error => .reject error

structure RangeStreamReject where
  lsn : Nat
  error : RangeAdmitError
  deriving DecidableEq, Repr

structure RangeCatchupPlan where
  rangeId : Nat
  apply : List Nat
  rejected : List RangeStreamReject
  resume : RangeStreamPosition
  scanned : Nat
  deriving DecidableEq, Repr

/-- The loop of `plan_range_catchup` over the records from the given index on. -/
def scanRecords (plan : RangeCatchupPlan) : Nat → List ChangeRecord → RangeCatchupPlan
  | _, [] => plan
  | index, record :: rest =>
    match classifyRangeRecord plan.resume record with
    | .apply =>
      scanRecords { plan with apply := plan.apply ++ [index], resume := plan.resume.advance record }
        (index + 1) rest
    | .reject error =>
      scanRecords { plan with rejected := plan.rejected ++ [⟨record.lsn, error⟩] } (index + 1) rest
    | .skipOtherRange | .skipReplayed => scanRecords plan (index + 1) rest

def planRangeCatchup (position : RangeStreamPosition) (records : List ChangeRecord) : RangeCatchupPlan :=
  scanRecords ⟨position.rangeId, [], [], position, records.length⟩ 0 records

def RangeCatchupPlan.selects (plan : RangeCatchupPlan) (slice : List ChangeRecord) : List ChangeRecord :=
  plan.apply.filterMap (slice[·]?)

variable {record : ChangeRecord}

variable {plan : RangeCatchupPlan}

section

variable {position : RangeStreamPosition} (index : Nat)

variable (rest : List ChangeRecord)

theorem scanRecords_passed
    (passed : record.rangeId = some plan.resume.rangeId → record.lsn ≤ plan.resume.appliedLsn) :
    scanRecords plan index (record :: rest) = scanRecords plan (index + 1) rest := by
  by_cases own : record.rangeId = some plan.resume.rangeId
  · simp [scanRecords, classifyRangeRecord, own, passed own]
  · simp [scanRecords, classifyRangeRecord, own]

structure RangeStreamPosition.Precedes (position : RangeStreamPosition) (record : ChangeRecord) : Prop where
  lsn : position.appliedLsn < record.lsn
  term : position.acceptedTerm ≤ record.term
  epoch : ∀ epoch ∈ record.ownershipEpoch, position.acceptedEpoch ≤ epoch

theorem RangeStreamPosition.Precedes.admitted
    (precedes : position.Precedes record) : position.authority.admit record = .ok () := by
  unfold RangeAuthority.admit RangeStreamPosition.authority
  cases stamped : record.ownershipEpoch with
  | none => simp [not_lt.mpr precedes.term]
  | some epoch => simp [not_lt.mpr precedes.term, not_lt.mpr (precedes.epoch epoch stamped)]

theorem scanRecords_apply (own : record.rangeId = some plan.resume.rangeId)
    (precedes : plan.resume.Precedes record) :
    scanRecords plan index (record :: rest) =
      scanRecords { plan with apply := plan.apply ++ [index], resume := plan.resume.advance record }
        (index + 1) rest := by
  simp [scanRecords, classifyRangeRecord, own, not_le.mpr precedes.lsn, precedes.admitted]

theorem RangeStreamPosition.Precedes.advance
    (precedes : position.Precedes record) (own : record.rangeId = some position.rangeId) :
    (position.advance record).rangeId = position.rangeId ∧ (position.advance record).appliedLsn = record.lsn ∧
      (position.advance record).acceptedTerm = record.term ∧
      ((position.advance record).acceptedEpoch = position.acceptedEpoch ∨
        record.ownershipEpoch = some (position.advance record).acceptedEpoch) := by
  have ahead := not_le.mpr precedes.lsn
  have term := precedes.term
  simp only [RangeStreamPosition.advance, own, ne_eq, not_true_eq_false, ahead, or_self, if_false]
  refine ⟨trivial, trivial, by split_ifs <;> omega, ?_⟩
  cases record.ownershipEpoch with
  | none => exact .inl rfl
  | some epoch => grind

end

/-- A stream in which positions increase, and terms and the ownership epochs of the range never decrease. -/
structure StreamOrder (stream : List ChangeRecord) (rangeId : Nat) : Prop where
  positions : stream.Pairwise fun a b => a.lsn < b.lsn
  terms : stream.Pairwise fun a b => a.term ≤ b.term
  epochs : stream.Pairwise fun a b => a.rangeId = some rangeId → b.rangeId = some rangeId →
    ∀ first ∈ a.ownershipEpoch, ∀ second ∈ b.ownershipEpoch, first ≤ second

def dueAfter (rangeId start : Nat) (record : ChangeRecord) : Bool :=
  record.rangeId = some rangeId && start < record.lsn

/-- The position and the selection of a target that has been fed the first `frontier` records. -/
structure Tip (stream : List ChangeRecord) (rangeId start term frontier : Nat)
    (position : RangeStreamPosition) (selected : List ChangeRecord) : Prop where
  selection : selected = (stream.take frontier).filter (dueAfter rangeId start)
  range : position.rangeId = rangeId
  reached : (position.appliedLsn = start ∧ position.acceptedTerm = term) ∨
    ∃ record ∈ selected, record.lsn = position.appliedLsn ∧ record.term = position.acceptedTerm
  beyond : start ≤ position.appliedLsn
  passed : ∀ record ∈ stream.take frontier, record.rangeId = some rangeId → record.lsn ≤ position.appliedLsn
  ahead : ∀ record ∈ stream.drop frontier, record.rangeId = some rangeId → position.Precedes record

section

variable {stream : List ChangeRecord} {rangeId start term frontier : Nat} {position : RangeStreamPosition}
  {selected : List ChangeRecord}

variable {rest : List ChangeRecord} {record : ChangeRecord}

theorem take_succ_of_drop {index : Nat} (next : stream.drop index = record :: rest) :
    stream.take (index + 1) = stream.take index ++ [record] ∧ stream.drop (index + 1) = rest := by
  have held : stream[index]? = some record := by
    have first := congrArg List.head? next
    simpa using first
  constructor
  · rw [take_add_one, held]
    rfl
  · rw [← drop_drop, next]
    rfl

theorem Tip.skip (tip : Tip stream rangeId start term frontier position selected)
    (next : stream.drop frontier = record :: rest)
    (other : record.rangeId ≠ some rangeId) :
    Tip stream rangeId start term (frontier + 1) position selected := by
  obtain ⟨taken, left⟩ := take_succ_of_drop next
  refine ⟨?_, tip.range, tip.reached, tip.beyond, ?_, ?_⟩
  · rw [taken, filter_append, ← tip.selection]
    simp [dueAfter, other]
  · intro earlier member own
    rw [taken] at member
    rcases mem_append.mp member with before | last
    · exact tip.passed earlier before own
    · rw [mem_singleton.mp last] at own
      exact absurd own other
  · intro later member own
    rw [left] at member
    exact tip.ahead later (next ▸ mem_cons_of_mem _ member) own

section

variable (order : StreamOrder stream rangeId)
include order

theorem Tip.select (tip : Tip stream rangeId start term frontier position selected)
    (next : stream.drop frontier = record :: rest)
    (own : record.rangeId = some rangeId) :
    Tip stream rangeId start term (frontier + 1) (position.advance record) (selected ++ [record]) := by
  obtain ⟨taken, left⟩ := take_succ_of_drop next
  have precedes := tip.ahead record (next ▸ mem_cons_self) own
  have later_order {relation : ChangeRecord → ChangeRecord → Prop} (sorted : stream.Pairwise relation)
      {later : ChangeRecord} (member : later ∈ rest) : relation record later := by
    have suffix := sorted.sublist (drop_sublist frontier stream)
    rw [next] at suffix
    exact rel_of_pairwise_cons suffix member
  obtain ⟨range, lsn, accepted, epoch⟩ := precedes.advance (tip.range ▸ own)
  have beyond := tip.beyond
  have forward := precedes.lsn
  refine ⟨?_, range.trans tip.range, .inr ⟨record, by simp, lsn.symm, accepted.symm⟩, by omega, ?_, ?_⟩
  · rw [taken, filter_append, ← tip.selection]
    have due : start < record.lsn := by omega
    simp [dueAfter, own, due]
  · intro earlier member ownEarlier
    rw [taken] at member
    rcases mem_append.mp member with before | last
    · have reached := tip.passed earlier before ownEarlier
      omega
    · rw [mem_singleton.mp last, lsn]
  · intro later member ownLater
    rw [left] at member
    refine ⟨?_, ?_, ?_⟩
    · rw [lsn]
      exact later_order order.positions member
    · rw [accepted]
      exact later_order order.terms member
    · intro stamped held
      rcases epoch with same | own_epoch
      · rw [same]
        exact (tip.ahead later (next ▸ mem_cons_of_mem _ member) ownLater).epoch stamped held
      · exact later_order order.epochs member own ownLater _ own_epoch stamped held

theorem Tip.scan {slice fed : List ChangeRecord} {index : Nat}
    {plan : RangeCatchupPlan} (whole : slice = fed ++ rest) (segment : rest <+: stream.drop index)
    (tip : Tip stream rangeId start term frontier plan.resume selected) (reaches : index ≤ frontier) :
    ∃ fresh, (scanRecords plan fed.length rest).selects slice = plan.selects slice ++ fresh ∧
      Tip stream rangeId start term (max frontier (index + rest.length))
        (scanRecords plan fed.length rest).resume (selected ++ fresh) := by
  induction rest generalizing fed index frontier plan selected with
  | nil =>
    refine ⟨[], by simp [scanRecords], ?_⟩
    have same : max frontier index = frontier := by omega
    simpa [scanRecords, same] using tip
  | cons record rest ih =>
    obtain ⟨tail, split⟩ := segment
    have next : stream.drop index = record :: (rest ++ tail) := split.symm
    have segmentRest : rest <+: stream.drop (index + 1) := ⟨tail, (take_succ_of_drop next).2.symm⟩
    have wholeRest : slice = (fed ++ [record]) ++ rest := by rw [whole, append_assoc]; rfl
    have length : (fed ++ [record]).length = fed.length + 1 := by simp
    have ends : index + (record :: rest).length = index + 1 + rest.length := by
      simp only [length_cons]
      omega
    rw [ends]
    rcases lt_or_eq_of_le reaches with inside | rfl
    · have member : record ∈ stream.take frontier := by
        have held : stream[index]? = some record := by simpa using congrArg List.head? next
        rw [mem_take_iff_getElem]
        obtain ⟨bound, value⟩ := List.getElem?_eq_some_iff.mp held
        exact ⟨index, by omega, value⟩
      rw [scanRecords_passed _ _ fun own => tip.passed record member (tip.range ▸ own), ← length]
      exact ih wholeRest segmentRest tip inside
    · by_cases own : record.rangeId = some rangeId
      · have precedes := tip.ahead record (next ▸ mem_cons_self) own
        rw [scanRecords_apply _ _ (tip.range ▸ own) precedes, ← length]
        obtain ⟨fresh, chosen, moved⟩ := @ih _ _ _ _
          { plan with apply := plan.apply ++ [fed.length], resume := plan.resume.advance record }
          wholeRest segmentRest (tip.select order next own) le_rfl
        refine ⟨record :: fresh, ?_, ?_⟩
        · rw [chosen]
          simp [RangeCatchupPlan.selects, whole]
        · have ahead : max index (index + 1 + rest.length) = max (index + 1) (index + 1 + rest.length) := by omega
          rw [ahead]
          simpa using moved
      · have other : record.rangeId ≠ some plan.resume.rangeId := tip.range ▸ own
        rw [scanRecords_passed _ _ fun same => absurd same other, ← length]
        obtain ⟨fresh, chosen, moved⟩ := ih wholeRest segmentRest (tip.skip next own) le_rfl
        have ahead : max index (index + 1 + rest.length) = max (index + 1) (index + 1 + rest.length) := by omega
        exact ⟨fresh, chosen, ahead ▸ moved⟩

theorem Tip.catchUp
    (tip : Tip stream rangeId start term frontier position selected) {slice : List ChangeRecord} {first : Nat}
    (segment : slice <+: stream.drop first) (reaches : first ≤ frontier) :
    Tip stream rangeId start term (max frontier (first + slice.length)) (planRangeCatchup position slice).resume
      (selected ++ (planRangeCatchup position slice).selects slice) := by
  obtain ⟨fresh, chosen, moved⟩ := @Tip.scan _ _ _ _ _ _ slice order slice [] first
    ⟨position.rangeId, [], [], position, slice.length⟩ rfl segment tip reaches
  have selects : (planRangeCatchup position slice).selects slice = fresh := chosen
  rw [selects]
  exact moved

end

def frontierAt (stream : List ChangeRecord) (lsn : Nat) : Nat :=
  (stream.takeWhile fun record => record.lsn ≤ lsn).length

theorem take_frontierAt (stream : List ChangeRecord) (lsn : Nat) :
    stream.take (frontierAt stream lsn) = stream.takeWhile (fun record => record.lsn ≤ lsn) ∧
      stream.drop (frontierAt stream lsn) = stream.dropWhile fun record => record.lsn ≤ lsn := by
  have whole : stream.takeWhile (fun record => record.lsn ≤ lsn) ++
      stream.dropWhile (fun record => record.lsn ≤ lsn) = stream := takeWhile_append_dropWhile
  unfold frontierAt
  constructor
  · nth_rewrite 2 [← whole]
    exact take_left
  · nth_rewrite 2 [← whole]
    exact drop_left

theorem mem_dropWhile_lsn (order : StreamOrder stream rangeId) {lsn : Nat}
    (member : record ∈ stream.dropWhile fun record => record.lsn ≤ lsn) : lsn < record.lsn := by
  have sorted := order.positions.sublist (dropWhile_sublist fun record => record.lsn ≤ lsn)
  cases left : stream.dropWhile (fun record => record.lsn ≤ lsn) with
  | nil => simp [left] at member
  | cons head rest =>
    have first : lsn < head.lsn := by
      have remains : stream.dropWhile (fun record => record.lsn ≤ lsn) ≠ [] := by simp [left]
      have stops := head_dropWhile_not _ remains
      simpa [left] using stops
    rw [left] at member sorted
    rcases mem_cons.mp member with rfl | later
    · exact first
    · exact first.trans (rel_of_pairwise_cons sorted later)

def FitsStream (stream : List ChangeRecord) (term lsn : Nat) : Prop :=
  ∀ record ∈ stream, lsn < record.lsn → term ≤ record.term

theorem Tip.initial (order : StreamOrder stream rangeId) {epoch : Nat} (fits : FitsStream stream term start)
    (owned : ∀ record ∈ stream, record.rangeId = some rangeId → ∀ stamped ∈ record.ownershipEpoch, epoch ≤ stamped) :
    Tip stream rangeId start term (frontierAt stream start) ⟨rangeId, start, term, epoch⟩ [] := by
  obtain ⟨taken, left⟩ := take_frontierAt stream start
  have held (record : ChangeRecord) (member : record ∈ stream.takeWhile fun record => record.lsn ≤ start) :
      record.lsn ≤ start := by simpa using mem_takeWhile_imp member
  refine ⟨?_, rfl, .inl ⟨rfl, rfl⟩, le_rfl, ?_, ?_⟩
  · rw [taken]
    refine (filter_eq_nil_iff.mpr fun record member => ?_).symm
    simp [dueAfter, held record member]
  · intro record member _
    rw [taken] at member
    exact held record member
  · intro record member own
    have inStream : record ∈ stream := mem_of_mem_drop member
    rw [left] at member
    have after := mem_dropWhile_lsn order member
    exact ⟨after, fits record inStream after, owned record inStream own⟩

structure Vouches (stream : List ChangeRecord) (rangeId start term : Nat) (selected : List ChangeRecord)
    (position : RangeStreamPosition) : Prop where
  reached : (position.appliedLsn = start ∧ position.acceptedTerm = term) ∨
    ∃ record ∈ stream, record.lsn = position.appliedLsn ∧ record.term = position.acceptedTerm
  selects : ∀ record ∈ stream, dueAfter rangeId start record = true → record.lsn ≤ position.appliedLsn →
    record ∈ selected

theorem Vouches.mono {more : List ChangeRecord} (vouches : Vouches stream rangeId start term selected position) :
    Vouches stream rangeId start term (selected ++ more) position :=
  ⟨vouches.reached, fun record member due passed =>
    mem_append_left _ (vouches.selects record member due passed)⟩

theorem Tip.vouches (tip : Tip stream rangeId start term frontier position selected) :
    Vouches stream rangeId start term selected position := by
  refine ⟨?_, ?_⟩
  · rcases tip.reached with initial | ⟨record, member, lsn, accepted⟩
    · exact .inl initial
    · rw [tip.selection] at member
      exact .inr ⟨record, mem_of_mem_take (mem_of_mem_filter member), lsn, accepted⟩
  · intro record member due passed
    rw [tip.selection]
    refine mem_filter.mpr ⟨?_, due⟩
    rw [← take_append_drop frontier stream] at member
    rcases mem_append.mp member with taken | left
    · exact taken
    · have own : record.rangeId = some rangeId := by
        simp only [dueAfter, Bool.and_eq_true, decide_eq_true_eq] at due
        exact due.1
      exact absurd passed (not_le.mpr (tip.ahead record left own).lsn)

section

variable (order : StreamOrder stream rangeId)
include order

theorem StreamOrder.lsn_le {a b : ChangeRecord} (inA : a ∈ stream)
    (inB : b ∈ stream) (less : a.term < b.term) : a.lsn ≤ b.lsn := by
  have both := order.positions.and order.terms
  have related : stream.Pairwise fun a b =>
      (a.lsn < b.lsn → a.term ≤ b.term) ∧ (b.lsn < a.lsn → b.term ≤ a.term) :=
    both.imp fun later => ⟨fun _ => later.2, fun less => absurd less (not_lt.mpr later.1.le)⟩
  have symmetric : Std.Symm fun a b : ChangeRecord =>
      (a.lsn < b.lsn → a.term ≤ b.term) ∧ (b.lsn < a.lsn → b.term ≤ a.term) :=
    ⟨fun _ _ relation => ⟨relation.2, relation.1⟩⟩
  have every := related.forall_of_forall (fun _ _ => ⟨fun _ => le_rfl, fun _ => le_rfl⟩) inA inB
  by_contra behind
  exact absurd (every.2 (not_le.mp behind)) (not_le.mpr less)

theorem Vouches.passed (fits : FitsStream stream term start)
    (vouches : Vouches stream rangeId start term selected position) {live : ChangeRecord} (member : live ∈ stream)
    (covers : live.term < position.acceptedTerm ∨
      (position.acceptedTerm = live.term ∧ live.lsn ≤ position.appliedLsn)) :
    live.lsn ≤ position.appliedLsn := by
  rcases covers with newer | ⟨-, passed⟩
  · rcases vouches.reached with ⟨lsn, accepted⟩ | ⟨record, inStream, lsn, accepted⟩
    · rw [accepted] at newer
      rw [lsn]
      by_contra behind
      exact absurd (fits live member (not_le.mp behind)) (not_le.mpr newer)
    · rw [← lsn]
      exact order.lsn_le member inStream (accepted ▸ newer)
  · exact passed

theorem Tip.count (tip : Tip stream rangeId start term frontier position selected)
    (member : record ∈ selected) : selected.count record = 1 ∧ start < record.lsn := by
  have distinct : stream.Nodup := by
    refine order.positions.imp fun {a b} less same => ?_
    rw [same] at less
    exact lt_irrefl _ less
  have nodup : selected.Nodup := by
    rw [tip.selection]
    exact (distinct.sublist (take_sublist _ _)).filter _
  refine ⟨count_eq_one_of_mem nodup member, ?_⟩
  rw [tip.selection] at member
  have due := of_mem_filter member
  simp only [dueAfter, Bool.and_eq_true, decide_eq_true_eq] at due
  exact due.2

end

end

end RedDB.Cluster
