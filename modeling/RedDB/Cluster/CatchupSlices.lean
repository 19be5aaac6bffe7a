import RedDB.Cluster.RangeStream

namespace RedDB.Cluster

open List Replay

variable {position later : RangeStreamPosition} {record : ChangeRecord} {records : List ChangeRecord}

namespace RangeStreamPosition

theorem classify_eq_apply_iff : classifyRangeRecord position record = .apply ↔
      record.rangeId = some position.rangeId ∧ position.Precedes record := by
  constructor
  · intro selected
    unfold classifyRangeRecord at selected
    split_ifs at selected with other replayed
    have own := not_not.mp other
    refine ⟨own, not_le.mp replayed, ?_, ?_⟩ <;>
      simp only [ RangeAuthority.admit, authority, own] at selected <;>
      grind
  · rintro ⟨own, precedes⟩
    simp [classifyRangeRecord, own, not_le.mpr precedes.lsn, precedes.admitted]

def feed (position : RangeStreamPosition) (record : ChangeRecord) : RangeStreamPosition :=
  if classifyRangeRecord position record = .apply then position.advance record else position

def feedAll (position : RangeStreamPosition) (records : List ChangeRecord) : RangeStreamPosition :=
  records.foldl feed position

theorem feedAll_append (position : RangeStreamPosition) (records more : List ChangeRecord) :
    position.feedAll (records ++ more) = (position.feedAll records).feedAll more :=
  foldl_append ..

def picks (position : RangeStreamPosition) : Nat → List ChangeRecord → List Nat
  | _, [] => []
  | index, record :: rest =>
    if classifyRangeRecord position record = .apply then
      index :: (position.feed record).picks (index + 1) rest
    else (position.feed record).picks (index + 1) rest

theorem picks_append (position : RangeStreamPosition) (index : Nat) (records more : List ChangeRecord) :
    position.picks index (records ++ more) =
      position.picks index records ++ (position.feedAll records).picks (index + records.length) more := by
  induction records generalizing position index with
  | nil => rfl
  | cons record rest ih =>
    have moved : index + (record :: rest).length = index + 1 + rest.length := by
      simp only [length_cons]
      omega
    simp only [cons_append, picks, ih, moved, feedAll, foldl_cons]
    split_ifs
    · rfl
    · rfl

theorem picks_shift (position : RangeStreamPosition) (offset index : Nat) (records : List ChangeRecord) :
    position.picks (offset + index) records = (position.picks index records).map (offset + ·) := by
  induction records generalizing position index with
  | nil => rfl
  | cons record rest ih =>
    simp only [picks, add_assoc, ih]
    split_ifs
    · rfl
    · rfl

end RangeStreamPosition

variable (plan : RangeCatchupPlan)

theorem scanRecords_cons (index : Nat) (record : ChangeRecord) (rest : List ChangeRecord) :
    ∃ next : RangeCatchupPlan, scanRecords plan index (record :: rest) = scanRecords next (index + 1) rest ∧
      next.resume = plan.resume.feed record ∧
      next.apply = plan.apply ++ if classifyRangeRecord plan.resume record = .apply then [index] else [] := by
  cases decision : classifyRangeRecord plan.resume record with
  | apply =>
    refine ⟨{ plan with apply := plan.apply ++ [index], resume := plan.resume.advance record }, ?_, ?_, ?_⟩
    · rw [scanRecords, decision]
    · exact (if_pos decision).symm
    · simp
  | skipOtherRange
  | skipReplayed => exact ⟨plan, by rw [scanRecords, decision], by simp [RangeStreamPosition.feed, decision], by simp⟩
  | reject error =>
    refine ⟨{ plan with rejected := plan.rejected ++ [⟨record.lsn, error⟩] }, ?_, ?_, ?_⟩
    · rw [scanRecords, decision]
    · simp [RangeStreamPosition.feed, decision]
    · simp

theorem scanRecords_eq (index : Nat) (records : List ChangeRecord) :
    (scanRecords plan index records).apply = plan.apply ++ plan.resume.picks index records ∧
      (scanRecords plan index records).resume = plan.resume.feedAll records := by
  induction records generalizing plan index with
  | nil => simp [scanRecords, RangeStreamPosition.picks, RangeStreamPosition.feedAll]
  | cons record rest ih =>
    obtain ⟨next, scanned, resume, apply⟩ := scanRecords_cons plan index record rest
    obtain ⟨picked, reached⟩ := ih next (index + 1)
    rw [scanned]
    refine ⟨?_, ?_⟩
    · rw [picked, apply, resume, RangeStreamPosition.picks]
      split_ifs
      · simp
      · simp
    · rw [reached, resume]
      rfl

theorem planRangeCatchup_eq (position : RangeStreamPosition) (records : List ChangeRecord) :
    (planRangeCatchup position records).apply = position.picks 0 records ∧
      (planRangeCatchup position records).resume = position.feedAll records :=
  scanRecords_eq _ 0 records

/-- Plans the slices one after the other, each from the resume point of the slice before it. The answer is
    the selected indices, counted from the start of the first slice, and the last resume point. -/
def planSlices (position : RangeStreamPosition) (offset : Nat) :
    List (List ChangeRecord) → List Nat × RangeStreamPosition
  | [] => ([], position)
  | slice :: rest =>
    let plan := planRangeCatchup position slice
    let (selected, resume) := planSlices plan.resume (offset + slice.length) rest
    (plan.apply.map (offset + ·) ++ selected, resume)

theorem planSlices_eq (position : RangeStreamPosition) (offset : Nat) (slices : List (List ChangeRecord)) :
    planSlices position offset slices = (position.picks offset slices.flatten, position.feedAll slices.flatten) := by
  induction slices generalizing position offset with
  | nil => rfl
  | cons slice rest ih =>
    obtain ⟨applied, resumed⟩ := planRangeCatchup_eq position slice
    have shifted := position.picks_shift offset 0 slice
    simp only [planSlices, ih, applied, resumed, flatten_cons, RangeStreamPosition.picks_append,
      RangeStreamPosition.feedAll_append, ← shifted, add_zero]

namespace RangeStreamPosition

structure Reaches (position later : RangeStreamPosition) : Prop where
  range : later.rangeId = position.rangeId
  lsn : position.appliedLsn ≤ later.appliedLsn
  term : position.acceptedTerm ≤ later.acceptedTerm
  epoch : position.acceptedEpoch ≤ later.acceptedEpoch

theorem Reaches.refl (position : RangeStreamPosition) : position.Reaches position := ⟨rfl, le_rfl, le_rfl, le_rfl⟩

theorem Reaches.trans {last : RangeStreamPosition} (first : position.Reaches later)
    (second : later.Reaches last) : position.Reaches last :=
  ⟨second.range.trans first.range, first.lsn.trans second.lsn, first.term.trans second.term,
    first.epoch.trans second.epoch⟩

theorem reaches_advance (position : RangeStreamPosition) (record : ChangeRecord) :
    position.Reaches (position.advance record) := by
  by_cases passed : record.rangeId ≠ some position.rangeId ∨ record.lsn ≤ position.appliedLsn
  · rw [advance, if_pos passed]
    exact Reaches.refl position
  · rw [advance, if_neg passed]
    push Not at passed
    refine ⟨rfl, passed.2.le, ?_, ?_⟩
    · dsimp only
      split_ifs <;> omega
    · cases stamped : record.ownershipEpoch with
      | none => exact le_rfl
      | some epoch =>
        dsimp only
        split_ifs <;> omega

theorem reaches_feed (position : RangeStreamPosition) (record : ChangeRecord) :
    position.Reaches (position.feed record) := by
  unfold feed
  split_ifs
  · exact reaches_advance position record
  · exact Reaches.refl position

theorem reaches_feedAll (position : RangeStreamPosition) (records : List ChangeRecord) :
    position.Reaches (position.feedAll records) := by
  induction records generalizing position with
  | nil => exact Reaches.refl position
  | cons record rest ih => exact (reaches_feed position record).trans (ih (position.feed record))

theorem Reaches.precedes (reaches : position.Reaches later) (precedes : later.Precedes record) :
    position.Precedes record :=
  ⟨reaches.lsn.trans_lt precedes.lsn, reaches.term.trans precedes.term, fun epoch held =>
    reaches.epoch.trans (precedes.epoch epoch held)⟩

theorem Reaches.refused (reaches : position.Reaches later) (refused : classifyRangeRecord position record ≠ .apply) :
    classifyRangeRecord later record ≠ .apply := by
  intro selected
  obtain ⟨own, precedes⟩ := classify_eq_apply_iff.mp selected
  exact refused (classify_eq_apply_iff.mpr ⟨reaches.range ▸ own, reaches.precedes precedes⟩)

theorem refused_feed (position : RangeStreamPosition) (record : ChangeRecord) :
    classifyRangeRecord (position.feed record) record ≠ .apply := by
  unfold feed
  split_ifs with selected
  · intro again
    obtain ⟨own, precedes⟩ := classify_eq_apply_iff.mp selected
    obtain ⟨-, lsn, -, -⟩ := precedes.advance own
    have ahead := (classify_eq_apply_iff.mp again).2.lsn
    omega
  · exact selected

theorem refused_feedAll (position : RangeStreamPosition) (member : record ∈ records) :
    classifyRangeRecord (position.feedAll records) record ≠ .apply := by
  obtain ⟨before, after, rfl⟩ := mem_iff_append.mp member
  rw [feedAll_append]
  exact (reaches_feedAll _ after).refused (refused_feed _ record)

theorem picks_eq_nil (refused : ∀ record ∈ records, classifyRangeRecord position record ≠ .apply)
    (index : Nat) : position.picks index records = [] := by
  induction records generalizing index with
  | nil => rfl
  | cons record rest ih =>
    have first := refused record mem_cons_self
    have same : position.feed record = position := if_neg first
    rw [picks, if_neg first, same]
    exact ih (fun later member => refused later (mem_cons_of_mem _ member)) _

def chosen (position : RangeStreamPosition) : List ChangeRecord → List ChangeRecord
  | [] => []
  | record :: rest =>
    if classifyRangeRecord position record = .apply then record :: (position.feed record).chosen rest
    else (position.feed record).chosen rest

theorem filterMap_picks (position : RangeStreamPosition) (fed rest : List ChangeRecord) :
    (position.picks fed.length rest).filterMap ((fed ++ rest)[·]?) = position.chosen rest := by
  induction rest generalizing position fed with
  | nil => rfl
  | cons record rest ih =>
    have next := ih (position.feed record) (fed ++ [record])
    rw [append_assoc, singleton_append, length_append, length_singleton] at next
    simp only [picks, chosen]
    split_ifs
    · rw [filterMap_cons_some (b := record) (by simp), next]
    · exact next

theorem precedes_of_mem_chosen (member : record ∈ position.chosen records) : position.Precedes record := by
  induction records generalizing position with
  | nil => cases member
  | cons first rest ih =>
    have moved := reaches_feed position first
    unfold chosen at member
    split_ifs at member with selected
    · rcases mem_cons.mp member with rfl | later
      · exact (classify_eq_apply_iff.mp selected).2
      · exact moved.precedes (ih later)
    · exact moved.precedes (ih member)

structure Follows (earlier record : ChangeRecord) : Prop where
  term : earlier.term ≤ record.term
  epoch : ∀ first ∈ earlier.ownershipEpoch, ∀ second ∈ record.ownershipEpoch, first ≤ second

theorem follows_of_advance {selected : ChangeRecord} (own : selected.rangeId = some position.rangeId)
    (precedes : position.Precedes selected) (next : (position.advance selected).Precedes record) :
    Follows selected record := by
  obtain ⟨-, -, term, epoch⟩ := precedes.advance own
  refine ⟨term ▸ next.term, ?_⟩
  intro first held second stamped
  have above := next.epoch second stamped
  have kept := precedes.epoch first held
  have reached : first ≤ (position.advance selected).acceptedEpoch := by
    have ahead := not_le.mpr precedes.lsn
    simp only [advance, own, ne_eq, not_true_eq_false, ahead, or_self, if_false, Option.mem_def.mp held]
    split_ifs <;> omega
  exact reached.trans above

theorem pairwise_chosen (position : RangeStreamPosition) (records : List ChangeRecord) :
    (position.chosen records).Pairwise Follows := by
  induction records generalizing position with
  | nil => exact List.Pairwise.nil
  | cons record rest ih =>
    unfold chosen
    split_ifs with selected
    · obtain ⟨own, precedes⟩ := classify_eq_apply_iff.mp selected
      have moved : position.feed record = position.advance record := if_pos selected
      refine pairwise_cons.mpr ⟨fun later member => ?_, ih _⟩
      rw [moved] at member
      exact follows_of_advance own precedes (precedes_of_mem_chosen member)
    · exact ih _

end RangeStreamPosition

open RangeStreamPosition in
/-- Catch-up can stop and resume after any record. A record that was planned is not selected again, and terms
    and ownership epochs never go back along a selection. -/
theorem rangeCatchup_resumable : (∀ position slices, planSlices position 0 slices =
      ((planRangeCatchup position slices.flatten).apply, (planRangeCatchup position slices.flatten).resume)) ∧
    (∀ position processed again, again <+: processed →
      (planRangeCatchup (planRangeCatchup position processed).resume again).apply = []) ∧
    ∀ position records, ((planRangeCatchup position records).selects records).Pairwise fun earlier record =>
      earlier.term ≤ record.term ∧
        ∀ first ∈ earlier.ownershipEpoch, ∀ second ∈ record.ownershipEpoch, first ≤ second := by
  refine ⟨?_, ?_, ?_⟩
  · intro position slices
    obtain ⟨applied, resumed⟩ := planRangeCatchup_eq position slices.flatten
    rw [planSlices_eq, applied, resumed]
  · intro position processed again part
    rw [(planRangeCatchup_eq position processed).2, (planRangeCatchup_eq _ again).1]
    exact picks_eq_nil (fun record member => refused_feedAll position (part.subset member)) 0
  · intro position records
    have selects : (planRangeCatchup position records).selects records = position.chosen records := by
      rw [RangeCatchupPlan.selects, (planRangeCatchup_eq position records).1]
      exact filterMap_picks position [] records
    rw [selects]
    exact (pairwise_chosen position records).imp fun follows => ⟨follows.term, follows.epoch⟩

end RedDB.Cluster
