import RedDB.Queue.Readers
import RedDB.Queue.StoreSpec

namespace RedDB.Queue

open List Library Resource LifecycleConfig QueueData

section

def Live (log : List LogEntry) (mark : Mark) : Prop :=
  ∃ before after, log = before ++ .marked mark :: after ∧ .released mark.message ∉ after

variable {log : List LogEntry} {mark : Mark} {entry : LogEntry}

theorem live_append (live : Live (log ++ [entry]) mark) :
    entry = .marked mark ∨ (Live log mark ∧ entry ≠ .released mark.message) := by
  obtain ⟨before, after, split, kept⟩ := live
  rcases eq_nil_or_concat after with rfl | ⟨middle, last, rfl⟩
  · left
    exact (append_inj' split rfl).2 |> singleton_inj.mp
  · right
    have parts : log ++ [entry] = (before ++ .marked mark :: middle) ++ [last] := by
      simpa using split
    obtain ⟨logEq, lastEq⟩ := append_inj' parts rfl
    have same : entry = last := singleton_inj.mp lastEq
    subst same
    simp only [concat_eq_append, mem_append, mem_singleton, not_or] at kept
    exact ⟨⟨before, middle, logEq, kept.1⟩, fun released => kept.2 released.symm⟩

end

def Apart (log : List LogEntry) : Prop :=
  ∀ before second after, log = before ++ .marked second :: after →
    ∀ first, Live before first → first.message = second.message → first.deadlineNs ≤ second.atNs

theorem Apart.append {log : List LogEntry} {entry : LogEntry} (apart : Apart log)
    (fresh : ∀ second, entry = .marked second →
      ∀ first, Live log first → first.message = second.message → first.deadlineNs ≤ second.atNs) :
    Apart (log ++ [entry]) := by
  intro before second after split first live same
  rcases eq_nil_or_concat after with rfl | ⟨middle, last, rfl⟩
  · obtain ⟨logEq, entryEq⟩ := append_inj' split rfl
    subst logEq
    exact fresh second (singleton_inj.mp entryEq) first live same
  · have parts : log ++ [entry] = (before ++ .marked second :: middle) ++ [last] := by
      simpa using split
    exact apart before second middle (append_inj' parts rfl).1 first live same

section

variable (queue : String)

def Holds (data : QueueData) (mark : Mark) : Prop :=
  ∃ id row, (id, .pending row) ∈ data.rows ∧ row.queue = queue ∧ row.messageId = mark.message ∧
    row.lockDeadlineNs = mark.deadlineNs

structure Orderly (s : ReadSpace) : Prop where
  covered : ∀ mark, Live s.log mark → s.data.nowNs < mark.deadlineNs → Holds queue s.data mark
  apart : Apart s.log
  marked : ∀ entry ∈ s.returned, ∀ d ∈ entry.2,
    ∃ mark, .marked mark ∈ s.log ∧ mark.call = entry.1 ∧ mark.message = d.messageId
  numbered : s.data.Numbered

/-- What a read counts on: time goes on, the history grows, and while it has the lock nobody else delivers. -/
structure Rely (call : Nat) (s t : ReadSpace) : Prop where
  clock : s.data.nowNs ≤ t.data.nowNs
  log : s.log <+: t.log
  lock : s.lock = some call → t.lock = some call
  rows : s.lock = some call → ∀ id row, (id, .pending row) ∈ t.data.rows → row.queue = queue →
    (id, .pending row) ∈ s.data.rows

variable {queue} {s t u : ReadSpace} {call : Nat}

theorem Rely.refl (call : Nat) (s : ReadSpace) : Rely queue call s s :=
  ⟨le_rfl, prefix_refl _, id, fun _ _ _ held _ => held⟩

theorem Rely.trans (call : Nat) (s t u : ReadSpace) (first : Rely queue call s t) (second : Rely queue call t u) :
    Rely queue call s u where
  clock := first.clock.trans second.clock
  log := first.log.trans second.log
  lock mine := second.lock (first.lock mine)
  rows mine id row held own := first.rows mine id row (second.rows (first.lock mine) id row held own) own

def Admits (_ : Nat) (o : StoreOp) (s : ReadSpace) : Prop := o = .lockReads → s.lock = none

def Quiet : StoreOp → Prop
  | .insertMeta (.pending _) => False
  | .deleteMeta _ (.pending _) => False
  | .lockReads => False
  | .unlockReads => False
  | _ => True

theorem act_nowNs (o : StoreOp) (data : QueueData) : (act o data).2.nowNs = data.nowNs := by
  cases o <;> rfl

variable {o : StoreOp}

section

variable {data : QueueData} {id : Nat} {row : PendingRow} (quiet : Quiet o)
include data id row quiet

theorem quiet_rows (held : (id, .pending row) ∈ (act o data).2.rows) : (id, .pending row) ∈ data.rows := by
  cases o with
  | insertMeta added =>
    rcases mem_addRow.mp held with old | new
    · exact old
    · cases new
      exact absurd quiet id
  | deleteMeta removed other | releaseMeta removed other => exact (mem_removeRow.mp held).1
  | _ => exact held

theorem quiet_kept (other : o ≠ .releaseMeta id (.pending row)) (held : (id, .pending row) ∈ data.rows) :
    (id, .pending row) ∈ (act o data).2.rows := by
  cases o with
  | insertMeta added => exact mem_addRow.mpr (.inl held)
  | deleteMeta removed old =>
    refine mem_removeRow.mpr ⟨held, fun same => ?_⟩
    cases same
    exact quiet
  | releaseMeta removed old =>
    refine mem_removeRow.mpr ⟨held, fun same => ?_⟩
    cases same
    exact other rfl
  | _ => exact held

end

theorem noted_quiet (queue : String) (call : Nat) (s : ReadSpace) (quiet : Quiet o) :
    (noted queue call s o = [] ∧ ∀ id row, o = .releaseMeta id (.pending row) → row.queue ≠ queue) ∨
      ∃ id row, o = .releaseMeta id (.pending row) ∧ row.queue = queue ∧
        noted queue call s o = [.released row.messageId] := by
  cases o with
  | insertMeta row =>
    cases row with
    | pending row => exact absurd quiet id
    | _ => exact .inl ⟨rfl, nofun⟩
  | releaseMeta id row =>
    cases row with
    | pending row =>
      by_cases own : row.queue = queue
      · exact .inr ⟨id, row, rfl, own, if_pos own⟩
      · refine .inl ⟨if_neg own, ?_⟩
        rintro _ _ ⟨⟩
        exact own
    | _ => exact .inl ⟨rfl, nofun⟩
  | _ => exact .inl ⟨rfl, nofun⟩

theorem quiet_lockAfter (quiet : Quiet o) (lock : Option Nat) : lockAfter call lock o = lock := by
  cases o <;> first | rfl | exact absurd quiet id

theorem quiet_rely (quiet : Quiet o) (j : Nat) : Rely queue j s (s.perform queue call o).2 where
  clock := (act_nowNs o s.data).ge
  log := prefix_append _ _
  lock mine := (quiet_lockAfter quiet s.lock).trans mine
  rows _ _ _ held _ := quiet_rows quiet held

theorem quiet_orderly (orderly : Orderly queue s) (quiet : Quiet o) : Orderly queue (s.perform queue call o).2 := by
  have numbered := numbered_act o orderly.numbered
  have nowNs : (s.perform queue call o).2.data.nowNs = s.data.nowNs := act_nowNs o s.data
  rcases noted_quiet queue call s quiet with
    ⟨silent, elsewhere⟩ | ⟨id, row, rfl, own, released⟩
  · have log : (s.perform queue call o).2.log = s.log := by
      simp only [ReadSpace.perform, silent, append_nil]
    refine ⟨?_, log ▸ orderly.apart, log ▸ orderly.marked, numbered⟩
    intro mark live later
    rw [log] at live
    rw [nowNs] at later
    obtain ⟨id, row, held, own, message, deadline⟩ := orderly.covered mark live later
    exact ⟨id, row, quiet_kept quiet (fun same => elsewhere id row same own) held, own, message, deadline⟩
  · have log : (s.perform queue call (.releaseMeta id (.pending row))).2.log =
        s.log ++ [.released row.messageId] := by
      simp only [ReadSpace.perform, released]
    refine ⟨?_, log ▸ orderly.apart.append nofun, ?_, numbered⟩
    · intro mark live later
      rw [log] at live
      rw [nowNs] at later
      rcases live_append live with impossible | ⟨before, other⟩
      · cases impossible
      · obtain ⟨id', row', held, own', message, deadline⟩ := orderly.covered mark before later
        refine ⟨id', row', mem_removeRow.mpr ⟨held, ?_⟩, own', message, deadline⟩
        rintro ⟨⟩
        exact other (congrArg LogEntry.released message)
    · intro entry member d given
      obtain ⟨mark, listed, rest⟩ := orderly.marked entry member d given
      exact ⟨mark, log ▸ mem_append_left _ listed, rest⟩

end

section

open Fallible

variable {queue group key : String} {messageId deliveryId : Nat}

theorem within_perform {o : StoreOp} (quiet : Quiet o) : Within Quiet (perform o) := within_lift quiet

theorem quiet_dropRow (entry : Nat × MetaRow) : Within Quiet (dropRow entry) := by
  obtain ⟨id, row⟩ := entry
  cases row <;> exact within_perform (by exact trivial)

theorem quiet_findPendingByDelivery : Within Quiet (findPendingByDelivery deliveryId) :=
  (within_perform (by exact trivial)).bind fun _ => within_pure _

theorem quiet_requirePending : Within Quiet (requirePending deliveryId) := by
  refine quiet_findPendingByDelivery.bind fun found => ?_
  cases found <;> trivial

theorem quiet_readAttempts : Within Quiet (readAttempts queue messageId group) :=
  (within_perform (by exact trivial)).bind fun _ => within_pure _

theorem quiet_clearAttempts : Within Quiet (clearAttempts queue messageId group) :=
  (within_perform (by exact trivial)).bind fun _ => Within.forM quiet_dropRow

theorem quiet_writeAttempts {attempts : Nat} : Within Quiet (writeAttempts queue messageId group attempts) := by
  refine quiet_clearAttempts.bind fun _ => (within_perform (by exact trivial)).bind fun _ =>
    (within_perform (by exact trivial)).bind fun found => ?_
  cases found with
  | none => exact within_pure _
  | some message => exact within_perform (by exact trivial)

theorem quiet_bumpAttempt : Within Quiet (bumpAttempt deliveryId) :=
  quiet_requirePending.bind fun _ => quiet_readAttempts.bind fun _ => quiet_writeAttempts.bind fun _ =>
    within_pure _

theorem quiet_readPendingAttempt : Within Quiet (readPendingAttempt deliveryId) :=
  quiet_requirePending.bind fun _ => quiet_readAttempts.bind fun _ => within_pure _

theorem quiet_readMaxAttempts : Within Quiet (readMaxAttempts queue messageId) :=
  (within_perform (by exact trivial)).bind fun _ => within_pure _

theorem quiet_readMessage : Within Quiet (readMessage queue messageId) :=
  (within_perform (by exact trivial)).bind fun _ => within_pure _

theorem quiet_readOrderingKey : Within Quiet (readOrderingKey queue messageId) :=
  (within_perform (by exact trivial)).bind fun _ => within_pure _

theorem quiet_anyWithKey (ids : List Nat) : Within Quiet (anyWithKey queue key ids) := by
  induction ids with
  | nil => exact within_pure _
  | cons id ids ih =>
    refine quiet_readOrderingKey.bind fun found => ?_
    split
    · exact within_pure _
    · exact ih

theorem quiet_orderingKeyBlocked : Within Quiet (orderingKeyBlocked queue group messageId) := by
  refine quiet_readOrderingKey.bind fun found => ?_
  cases found with
  | none => exact within_pure _
  | some key =>
    exact ((within_perform (by exact trivial)).bind fun _ => within_pure _).bind fun ids => quiet_anyWithKey ids

theorem quiet_requirePayload : Within Quiet (requirePayload deliveryId) := by
  refine quiet_findPendingByDelivery.bind fun found => ?_
  cases found with
  | none => exact within_throw _
  | some entry =>
    refine quiet_readMessage.bind fun payload => ?_
    cases payload <;> trivial

theorem quiet_requireMessage : Within Quiet (requireMessage queue messageId) := by
  refine quiet_readMessage.bind fun payload => ?_
  cases payload <;> trivial

theorem quiet_retireMessage : Within Quiet (retireMessage queue messageId) := by
  refine Within.bind ?_ fun _ => within_perform (by exact trivial)
  exact (within_perform (by exact trivial)).bind fun _ => (within_perform (by exact trivial)).bind fun _ =>
    (within_perform (by exact trivial)).bind fun _ => Within.forM quiet_dropRow

theorem quiet_ackPending : Within Quiet (ackPending deliveryId) :=
  quiet_requirePending.bind fun _ => (within_perform (by exact trivial)).bind fun _ => quiet_clearAttempts.bind fun _ =>
    quiet_retireMessage

theorem quiet_retireForGroup : Within Quiet (retireForGroup deliveryId) :=
  quiet_requirePending.bind fun _ => (within_perform (by exact trivial)).bind fun _ => quiet_clearAttempts.bind fun _ =>
    within_perform (by exact trivial)

theorem quiet_ensureCollection : Within Quiet (ensureCollection queue) := by
  refine (within_perform (by exact trivial)).bind fun present => ?_
  split
  · exact within_pure _
  · exact within_perform (by exact trivial)

theorem quiet_enqueueDlq {target : String} {payload : Types.Value} {orderingKey : Option String} :
    Within Quiet (enqueueDlq target payload orderingKey) := by
  refine quiet_ensureCollection.bind fun _ => (within_perform (by exact trivial)).bind fun _ =>
    (within_perform (by exact trivial)).bind fun _ => ?_
  split
  · exact within_perform (by exact trivial)
  · exact within_pure _

variable {config : LifecycleConfig}

theorem quiet_retire : Within Quiet (config.retire deliveryId) := by
  unfold retire
  split
  · exact quiet_ackPending
  · exact quiet_retireForGroup

theorem quiet_retireExhausted : Within Quiet (config.retireExhausted deliveryId) := by
  unfold retireExhausted
  split
  · exact quiet_readPendingAttempt.bind fun _ => quiet_requirePayload.bind fun _ =>
      quiet_readOrderingKey.bind fun _ => quiet_retire.bind fun _ => quiet_enqueueDlq
  · exact quiet_retire

theorem quiet_countDelivery : Within Quiet (config.countDelivery deliveryId) := by
  unfold countDelivery
  split
  · exact quiet_bumpAttempt.bind fun _ => within_pure _
  · exact within_pure _

end

end RedDB.Queue
