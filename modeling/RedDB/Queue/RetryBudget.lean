import RedDB.Queue.NoLoss

namespace RedDB.Queue

open List Library RedDB.Types

namespace QueueData

/-- What one operation of the store answers and leaves, as a rewriting rule. -/
theorem runs_perform_iff {o : StoreOp} {onOk : Reply o → QueueData → Prop}
    {onError : QueueStoreError → QueueData → Prop} {s : QueueData} :
    Runs onOk onError (perform o) s ↔ onOk (act o s).1 (act o s).2 := true_and _ |>.to_iff

section

variable {onError : QueueStoreError → QueueData → Prop} {s : QueueData} {queue : String} {id : Nat} {row : MetaRow}

@[simp] theorem runs_map_iff {α β : Type} {f : α → β} {p : QueueIo α} {onOk : β → QueueData → Prop} :
    Runs onOk onError (f <$> p) s ↔ Runs (fun a => onOk (f a)) onError p s := Fallible.wp_bind p _

@[simp] theorem runs_now {onOk : Nat → QueueData → Prop} : Runs onOk onError (perform .now) s ↔ onOk s.nowNs s :=
  runs_perform_iff

@[simp] theorem runs_queueExists {onOk : Bool → QueueData → Prop} :
    Runs onOk onError (perform (.queueExists queue)) s ↔ onOk (decide (queue ∈ s.queues)) s := runs_perform_iff

@[simp] theorem runs_subjectRows {onOk : List (Nat × MetaRow) → QueueData → Prop} {kind : MetaKind}
    {group : Option String} {messageId : Option Nat} :
    Runs onOk onError (perform (.subjectRows kind queue group messageId)) s ↔
      onOk (s.subject kind queue group messageId) s := runs_perform_iff

@[simp] theorem runs_deadlineRows {onOk : List (Nat × MetaRow) → QueueData → Prop} {nowNs : Nat} :
    Runs onOk onError (perform (.deadlineRows queue nowNs)) s ↔ onOk (s.expired queue nowNs) s := runs_perform_iff

@[simp] theorem runs_deliveryRows {onOk : List (Nat × MetaRow) → QueueData → Prop} :
    Runs onOk onError (perform (.deliveryRows id)) s ↔ onOk (s.delivery id) s := runs_perform_iff

@[simp] theorem runs_newDeliveryId {onOk : Nat → QueueData → Prop} : Runs onOk onError (perform .newDeliveryId) s ↔
    onOk s.nextDelivery { s with nextDelivery := s.nextDelivery + 1 } := runs_perform_iff

@[simp] theorem runs_insertMeta {onOk : Unit → QueueData → Prop} :
    Runs onOk onError (perform (.insertMeta row)) s ↔ onOk () (s.addRow row) := runs_perform_iff

@[simp] theorem runs_deleteMeta {onOk : Unit → QueueData → Prop} :
    Runs onOk onError (perform (.deleteMeta id row)) s ↔ onOk () (s.removeRow id row) := runs_perform_iff

@[simp] theorem runs_releaseMeta {onOk : Unit → QueueData → Prop} :
    Runs onOk onError (perform (.releaseMeta id row)) s ↔ onOk () (s.removeRow id row) := runs_perform_iff

@[simp] theorem runs_listMessages {onOk : List Nat → QueueData → Prop} :
    Runs onOk onError (perform (.listMessages queue)) s ↔ onOk (s.ordered queue) s := runs_perform_iff

@[simp] theorem runs_getMessage {onOk : Option Message → QueueData → Prop} :
    Runs onOk onError (perform (.getMessage queue id)) s ↔ onOk (s.find queue id) s := runs_perform_iff

@[simp] theorem runs_setAttempts {onOk : Unit → QueueData → Prop} {attempts : Nat} :
    Runs onOk onError (perform (.setAttempts queue id attempts)) s ↔
      onOk () (s.updateMessage queue id fun m => { m with attempts }) := runs_perform_iff

@[simp] theorem runs_deleteMessage {onOk : Unit → QueueData → Prop} :
    Runs onOk onError (perform (.deleteMessage queue id)) s ↔ onOk () (s.removeMessage queue id) := runs_perform_iff

@[simp] theorem runs_createCollection {onOk : Unit → QueueData → Prop} :
    Runs onOk onError (perform (.createCollection queue)) s ↔ onOk () { s with queues := s.queues ++ [queue] } :=
  runs_perform_iff

@[simp] theorem runs_positionBoundary {onOk : Option Nat → QueueData → Prop} {side : QueueSide} :
    Runs onOk onError (perform (.positionBoundary queue side)) s ↔ onOk (s.boundary queue side) s := runs_perform_iff

@[simp] theorem runs_insertMessage {onOk : Nat → QueueData → Prop} {position maxAttempts : Nat} {payload : Value} :
    Runs onOk onError (perform (.insertMessage queue position payload maxAttempts)) s ↔
      onOk s.nextId (s.addMessage queue position payload maxAttempts) := runs_perform_iff

@[simp] theorem runs_setMetadata {onOk : Unit → QueueData → Prop} {availableAtNs : Option Nat}
    {orderingKey : Option String} :
    Runs onOk onError (perform (.setMetadata queue id availableAtNs orderingKey)) s ↔
      onOk () (s.updateMessage queue id fun m => { m with availableAtNs, orderingKey }) := runs_perform_iff

end

end QueueData

/-- The rows in which the attempts of one message stand, none before the first attempt. -/
def counterRows (queue group : String) (messageId rowId : Nat) : Nat → List (Nat × MetaRow)
  | 0 => []
  | attempts + 1 => [(rowId, .attempts queue group messageId (attempts + 1))]

/-- A store that holds one message, which no group has in its hands. -/
def resting (group : String) (message : Message) (nowNs rowId nextId nextDelivery : Nat) : QueueData :=
  ⟨nowNs, [message.queue], [message], counterRows message.queue group message.id rowId message.attempts, nextId,
    nextDelivery⟩

def handed (config : LifecycleConfig) (group consumer : String) (message : Message)
    (nowNs nextId nextDelivery : Nat) : QueueData :=
  ⟨nowNs, [message.queue], [{ message with attempts := message.attempts + 1 }],
    [(nextId, .pending ⟨message.queue, group, message.id, nextDelivery, consumer, nowNs + config.lockDurationNs⟩),
      (nextId + 1, .attempts message.queue group message.id (message.attempts + 1))], nextId + 2, nextDelivery + 1⟩

variable {config : LifecycleConfig} {group : String} {message : Message} {nowNs rowId nextId nextDelivery : Nat}
  (consumer : String)

open QueueData

theorem runs_read_resting (work : config.mode = .work) (due : message.availableAtNs = none)
    (free : message.orderingKey = none) (left : message.attempts < message.maxAttempts)
    (bounded : message.maxAttempts ≤ u32Max) :
    Runs (fun delivered t => delivered.map (·.messageId) = [message.id] ∧
        t = handed config group consumer message nowNs nextId nextDelivery)
      (fun _ _ => False) (config.groupRead message.queue group consumer 1)
      (resting group message nowNs rowId nextId nextDelivery) := by
  obtain ⟨queue, id, position, payload, attempts, maxAttempts, availableAtNs, orderingKey⟩ := message
  dsimp only at due free left bounded ⊢
  subst due free
  have capped : min (attempts + 1) u32Max = attempts + 1 := min_eq_left (left.trans_le bounded)
  have some : maxAttempts ≠ 0 := Nat.ne_zero_of_lt left
  have room : ¬ maxAttempts ≤ attempts := not_le.mpr left
  rcases attempts with _ | attempts <;>
    simp [LifecycleConfig.groupRead, reclaimExpired, LifecycleConfig.available, availableMessages, pendingMessageIds,
      dueMessages, Fallible.gather, dueMessage, LifecycleConfig.readLoop, LifecycleConfig.orderingKeyBlocked,
      readOrderingKey, LifecycleConfig.readOne, markPending, findPendingEntryByKey, LifecycleConfig.countDelivery,
      bumpAttempt, requirePending, findPendingByDelivery, readAttempts, attemptsOf, writeAttempts, clearAttempts, dropRow,
      readMaxAttempts, LifecycleConfig.requireMessage, readMessage, resting, counterRows, handed, expired, subject, ordered,
      on, find, addRow, delivery, updateMessage, removeRow, MetaRow.pending?, MetaRow.kind, MetaRow.queue, MetaRow.group,
      MetaRow.messageId, work, capped, some, room]

variable (held : Nat)

theorem runs_refuse_handed (free : message.orderingKey = none)
    (more : message.attempts + 2 < message.maxAttempts) (bounded : message.maxAttempts ≤ u32Max) :
    Runs (fun _ t => t = resting group { message with attempts := message.attempts + 2 } (nowNs + held) (nextId + 2)
        (nextId + 3) (nextDelivery + 1)) (fun _ _ => False)
      (nackCommand config message.queue (.message group message.id) 0)
      { handed config group consumer message nowNs nextId nextDelivery with nowNs := nowNs + held } := by
  obtain ⟨queue, id, position, payload, attempts, maxAttempts, availableAtNs, orderingKey⟩ := message
  dsimp only at free more bounded ⊢
  subst free
  have capped : min (attempts + 1 + 1) u32Max = attempts + 2 := min_eq_left (by omega)
  have room : ¬ maxAttempts ≤ attempts + 2 := not_le.mpr more
  simp [nackCommand, resolveHandle, findPendingEntryByKey, LifecycleConfig.nackWithRetryDeadline, bumpAttempt,
    requirePending, findPendingByDelivery, readAttempts, attemptsOf, writeAttempts, clearAttempts, dropRow, readMaxAttempts,
    releasePending, delayRetry, resting, counterRows, handed, subject, find, addRow, delivery, updateMessage, removeRow,
    MetaRow.pending?, MetaRow.kind, MetaRow.queue, MetaRow.group, MetaRow.messageId, capped, room]

theorem runs_refuse_exhausted (work : config.mode = .work) (free : message.orderingKey = none)
    (last : message.maxAttempts ≤ message.attempts + 2) (left : message.attempts < message.maxAttempts)
    (bounded : message.maxAttempts ≤ u32Max) (elsewhere : config.dlqTarget ≠ some message.queue) :
    Runs (fun _ t => t.messages.map (·.queue) = config.dlqTarget.toList) (fun _ _ => False)
      (nackCommand config message.queue (.message group message.id) 0)
      { handed config group consumer message nowNs nextId nextDelivery with nowNs := nowNs + held } := by
  obtain ⟨queue, id, position, payload, attempts, maxAttempts, availableAtNs, orderingKey⟩ := message
  dsimp only at free last left bounded elsewhere ⊢
  subst free
  have spent : maxAttempts ≤ attempts + 1 + 1 := last
  cases target : config.dlqTarget with
  | none =>
    simp [nackCommand, resolveHandle, findPendingEntryByKey, LifecycleConfig.nackWithRetryDeadline, bumpAttempt,
      requirePending, findPendingByDelivery, readAttempts, attemptsOf, writeAttempts, clearAttempts, dropRow,
      readMaxAttempts, delayRetry, handed, subject, find, addRow, delivery, updateMessage, removeRow, target,
      LifecycleConfig.retire, work, ackPending, retireMessage, removeMessageState, removeMessage, MetaRow.pending?,
      MetaRow.kind, MetaRow.queue, MetaRow.group, MetaRow.messageId, spent, bounded]
  | some dead =>
    have other : dead ≠ queue := fun same => elsewhere (target.trans (congrArg some same))
    simp [nackCommand, resolveHandle, findPendingEntryByKey, LifecycleConfig.nackWithRetryDeadline, bumpAttempt,
      requirePending, findPendingByDelivery, readAttempts, attemptsOf, writeAttempts, clearAttempts, dropRow,
      readMaxAttempts, delayRetry, handed, subject, find, addRow, delivery, updateMessage, removeRow, target,
      LifecycleConfig.retire, work, ackPending, retireMessage, removeMessageState, removeMessage, requirePayload,
      readMessage, readOrderingKey, enqueueDlq, ensureCollection, boundary, addMessage, MetaRow.pending?, MetaRow.kind,
      MetaRow.queue, MetaRow.group, MetaRow.messageId, spent, bounded, other]

variable {configs : String → LifecycleConfig} {queue : String} {s : QueueRun}

theorem call_of_runs {α : Type} {p : QueueIo α} {onOk : α → QueueData → Prop}
    (runs : Runs onOk (fun _ _ => False) p s.data) (answer : α → List (String × Nat)) :
    ∃ a t, onOk a t ∧ s.call p answer = ⟨t, s.returned ++ answer a⟩ := by
  have ended := (Resumption.wp_iff.mp runs).2
  unfold QueueRun.call
  rcases result : Resumption.execute act p.run s.data with ⟨e | a, t⟩ <;> rw [result] at ended
  · exact ended.elim
  · exact ⟨a, t, ended, rfl⟩

/-- The message is read by the group and refused, after a wait and after having been held for a time. -/
def refusedRound (queue group consumer : String) (messageId : Nat) (times : Nat × Nat) : List QueueEvent :=
  [.tick times.1, .read queue group consumer 1, .tick times.2, .nack queue (.message group messageId) 0]

section

variable (message)

section

variable (work : (configs message.queue).mode = .work) (due : message.availableAtNs = none)
  (free : message.orderingKey = none) (bounded : message.maxAttempts ≤ u32Max) (times : Nat × Nat)
  (rests : s.data = resting group message nowNs rowId nextId nextDelivery)
include work due free bounded rests

theorem read_resting (left : message.attempts < message.maxAttempts) :
    (refusedRound message.queue group consumer message.id times).foldl (commandStep configs) s =
      commandStep configs ⟨{ handed (configs message.queue) group consumer message (nowNs + times.1) nextId nextDelivery with
          nowNs := nowNs + times.1 + times.2 }, s.returned ++ [(message.queue, message.id)]⟩
        (.nack message.queue (.message group message.id) 0) := by
  have waited : (commandStep configs s (.tick times.1)).data =
      resting group message (nowNs + times.1) rowId nextId nextDelivery := by
    simp only [commandStep, rests]
    rfl
  obtain ⟨delivered, t, ⟨named, rfl⟩, read⟩ := call_of_runs (s := commandStep configs s (.tick times.1))
    (waited ▸ runs_read_resting consumer work due free left bounded)
    (·.map fun d => (message.queue, d.messageId))
  have listed : delivered.map (fun d => (message.queue, d.messageId)) = [(message.queue, message.id)] := by
    have paired := congrArg (map fun id => (message.queue, id)) named
    rwa [map_map] at paired
  rw [listed] at read
  simp only [refusedRound, foldl_cons, foldl_nil]
  rw [show commandStep configs (commandStep configs s (.tick times.1)) (.read message.queue group consumer 1) = _ from
    read]
  rfl

theorem refusedRound_resting (more : message.attempts + 2 < message.maxAttempts) :
    (refusedRound message.queue group consumer message.id times).foldl (commandStep configs) s =
      ⟨resting group { message with attempts := message.attempts + 2 } (nowNs + times.1 + times.2) (nextId + 2)
        (nextId + 3) (nextDelivery + 1), s.returned ++ [(message.queue, message.id)]⟩ := by
  rw [read_resting message consumer work due free bounded times rests (by omega)]
  obtain ⟨outcome, t, rfl, refused⟩ := call_of_runs (s := ⟨_, s.returned ++ [(message.queue, message.id)]⟩)
    (runs_refuse_handed consumer times.2 free more bounded) fun _ => []
  rw [append_nil] at refused
  exact refused

theorem refusedRound_exhausted (left : message.attempts < message.maxAttempts)
    (last : message.maxAttempts ≤ message.attempts + 2)
    (elsewhere : (configs message.queue).dlqTarget ≠ some message.queue) :
    ∃ t : QueueData, t.messages.map (·.queue) = (configs message.queue).dlqTarget.toList ∧
      (refusedRound message.queue group consumer message.id times).foldl (commandStep configs) s =
        ⟨t, s.returned ++ [(message.queue, message.id)]⟩ := by
  rw [read_resting message consumer work due free bounded times rests left]
  obtain ⟨outcome, t, moved, refused⟩ := call_of_runs (s := ⟨_, s.returned ++ [(message.queue, message.id)]⟩)
    (runs_refuse_exhausted consumer times.2 work free last left bounded elsewhere) fun _ => []
  rw [append_nil] at refused
  exact ⟨t, moved, refused⟩

end

def refusedRounds (queue group consumer : String) (messageId : Nat) (times : List (Nat × Nat)) : List QueueEvent :=
  times.flatMap (refusedRound queue group consumer messageId)

theorem refusedRounds_resting (work : (configs message.queue).mode = .work) (due : message.availableAtNs = none)
    (free : message.orderingKey = none) (bounded : message.maxAttempts ≤ u32Max) (times : List (Nat × Nat))
    (rests : s.data = resting group message nowNs rowId nextId nextDelivery)
    (more : message.attempts + 2 * times.length < message.maxAttempts) :
    ∃ nowNs rowId nextId nextDelivery,
      (refusedRounds message.queue group consumer message.id times).foldl (commandStep configs) s =
        ⟨resting group { message with attempts := message.attempts + 2 * times.length } nowNs rowId nextId nextDelivery,
          s.returned ++ replicate times.length (message.queue, message.id)⟩ := by
  induction times generalizing s message nowNs rowId nextId nextDelivery with
  | nil => exact ⟨nowNs, rowId, nextId, nextDelivery, by simp [refusedRounds, ← rests]⟩
  | cons first times ih =>
    rw [length_cons] at more
    have round := refusedRound_resting message consumer work due free bounded first rests (by omega)
    obtain ⟨nowNs, rowId, nextId, nextDelivery, rest⟩ := ih
      { message with attempts := message.attempts + 2 } (s := ⟨_, s.returned ++ [(message.queue, message.id)]⟩) work due free bounded rfl (by dsimp only; omega)
    refine ⟨nowNs, rowId, nextId, nextDelivery, ?_⟩
    rw [refusedRounds, flatMap_cons, foldl_append, round]
    refine rest.trans ?_
    have total : message.attempts + 2 * (times.length + 1) = message.attempts + 2 + 2 * times.length := by omega
    simp [total, replicate_succ]

theorem refusedRounds_exhausted (work : (configs message.queue).mode = .work) (due : message.availableAtNs = none)
    (free : message.orderingKey = none) (bounded : message.maxAttempts ≤ u32Max) (before : List (Nat × Nat))
    (final : Nat × Nat) (rests : s.data = resting group message nowNs rowId nextId nextDelivery)
    (left : message.attempts + 2 * before.length < message.maxAttempts)
    (last : message.maxAttempts ≤ message.attempts + 2 * before.length + 2)
    (elsewhere : (configs message.queue).dlqTarget ≠ some message.queue) :
    ∃ t : QueueData, t.messages.map (·.queue) = (configs message.queue).dlqTarget.toList ∧
      (refusedRounds message.queue group consumer message.id (before ++ [final])).foldl (commandStep configs) s =
        ⟨t, s.returned ++ replicate (before.length + 1) (message.queue, message.id)⟩ := by
  obtain ⟨nowNs, rowId, nextId, nextDelivery, waited⟩ :=
    refusedRounds_resting message consumer work due free bounded before rests left
  obtain ⟨t, moved, ended⟩ := refusedRound_exhausted
    { message with attempts := message.attempts + 2 * before.length } consumer
    (s := ⟨resting group _ nowNs rowId nextId nextDelivery, s.returned ++ replicate before.length (message.queue, message.id)⟩)
    work due free bounded final rfl left last elsewhere
  refine ⟨t, moved, ?_⟩
  have whole : refusedRounds message.queue group consumer message.id (before ++ [final]) =
      refusedRounds message.queue group consumer message.id before ++
        refusedRound message.queue group consumer message.id final := by
    simp [refusedRounds]
  rw [whole, foldl_append, waited]
  refine ended.trans ?_
  rw [append_assoc, replicate_succ']

end

def freshMessage (queue : String) (payload : Value) (budget : Nat) : Message :=
  ⟨queue, 1, pushCenter, payload, 0, budget, none, none⟩

def pushed (queue : String) (payload : Value) (budget : Nat) : List QueueEvent :=
  [.create queue, .push queue ⟨.right, payload, budget, none, none⟩]

theorem pushed_resting (configs : String → LifecycleConfig) (queue group : String) (payload : Value)
    (budget nowNs : Nat) :
    (pushed queue payload budget).foldl (commandStep configs) (.initial nowNs) =
      ⟨resting group (freshMessage queue payload budget) nowNs 0 2 0, []⟩ := by
  have creates : Runs (fun _ t => t = ⟨nowNs, [queue], [], [], 1, 0⟩) (fun _ _ => False) (ensureCollection queue)
      (QueueRun.initial nowNs).data := by
    simp [ensureCollection, QueueRun.initial, QueueData.empty]
  have stores : Runs (fun _ t => t = resting group (freshMessage queue payload budget) nowNs 0 2 0) (fun _ _ => False)
      (pushCommand queue ⟨.right, payload, budget, none, none⟩) ⟨nowNs, [queue], [], [], 1, 0⟩ := by
    simp [freshMessage, pushCommand, boundary, on, pushPosition, addMessage, updateMessage, resting, counterRows]
  obtain ⟨-, t, rfl, created⟩ := call_of_runs creates fun _ => []
  obtain ⟨-, t, rfl, stored⟩ := call_of_runs (s := ⟨_, []⟩) stores fun _ => []
  have first : commandStep configs (.initial nowNs) (.create queue) = ⟨⟨nowNs, [queue], [], [], 1, 0⟩, []⟩ := created
  simp only [pushed, foldl_cons, foldl_nil, first]
  exact stored

def refusedOnce : List QueueEvent :=
  [.create "jobs", .push "jobs" ⟨.right, .integer 7, 2, none, none⟩, .read "jobs" "workers" "a" 1, refuse]

end RedDB.Queue
