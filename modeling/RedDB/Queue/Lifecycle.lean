import RedDB.Queue.Store

namespace RedDB.Queue

open Library RedDB.Types

inductive QueueStoreError
  | unknownDelivery (deliveryId : Nat)
  | unknownQueue (queue : String)
  deriving DecidableEq

abbrev QueueIo (α : Type) := Fallible StoreOp Reply QueueStoreError α

def perform (o : StoreOp) : QueueIo (Reply o) := ExceptT.lift (Resumption.perform o)

/-- `DEFAULT_READ_MAX_ATTEMPTS` -/
def defaultReadMaxAttempts : Nat := 3

def u32Max : Nat := 2 ^ 32 - 1

structure BumpedAttempt where
  attempts : Nat
  queue : String
  messageId : Nat
  group : String
  consumer : String

section

variable (deliveryId : Nat) (queue : String)

def findPendingByDelivery : QueueIo (Option (Nat × PendingRow)) := do
  let rows ← perform (.deliveryRows deliveryId)
  pure (rows.findSome? fun entry => entry.2.pending?.map (entry.1, ·))

/-- `find_pending_by_delivery(..).ok_or_else(UnknownDelivery)` -/
def requirePending : QueueIo (Nat × PendingRow) := do
  match ← findPendingByDelivery deliveryId with
  | some found => pure found
  | none => throw (.unknownDelivery deliveryId)

def findPendingEntryByKey (messageId : Nat) (group : String) :
    QueueIo (Option (Nat × PendingRow)) := do
  let rows ← perform (.subjectRows .pending queue (some group) (some messageId))
  pure (rows.head?.bind fun entry => entry.2.pending?.map (entry.1, ·))

def attemptsOf : MetaRow → Option Nat
  | .attempts _ _ _ attempts => some attempts
  | _ => none

def readAttempts (messageId : Nat) (group : String) : QueueIo Nat := do
  let rows ← perform (.subjectRows .attempts queue (some group) (some messageId))
  pure ((rows.head?.bind fun entry => attemptsOf entry.2).getD 0)

def dropRow (entry : Nat × MetaRow) : QueueIo Unit :=
  match entry.2 with
  | .pending row => perform (.releaseMeta entry.1 (.pending row))
  | row => perform (.deleteMeta entry.1 row)

section

variable (queue : String) (messageId : Nat) (group : String)

def clearAttempts : QueueIo Unit := do
  let rows ← perform (.subjectRows .attempts queue (some group) (some messageId))
  rows.forM dropRow

def writeAttempts (attempts : Nat) : QueueIo Unit := do
  clearAttempts queue messageId group
  perform (.insertMeta (.attempts queue group messageId attempts))
  match ← perform (.getMessage queue messageId) with
  | some _ => perform (.setAttempts queue messageId attempts)
  | none => pure ()

end

def pendingMessageIds (queue : String) (group : Option String) : QueueIo (List Nat) := do
  let rows ← perform (.subjectRows .pending queue group none)
  pure (rows.map (·.2.messageId))

def ackedMessageIds (queue group : String) : QueueIo (List Nat) := do
  let rows ← perform (.subjectRows .acked queue (some group) none)
  pure (rows.map (·.2.messageId))

section

variable (queue : String) (taken : List Nat)

def dueMessage (nowNs id : Nat) : QueueIo (List Nat) := do
  if id ∈ taken then pure []
  else
    let message ← perform (.getMessage queue id)
    pure (if ((message.bind (·.availableAtNs)).all fun due => decide (due ≤ nowNs)) = true then [id] else [])

def dueMessages (nowNs : Nat) (ids : List Nat) : QueueIo (List Nat) :=
  Fallible.gather (dueMessage queue taken nowNs) ids

end

def availableMessages (queue : String) : QueueIo (List Nat) := do
  let taken ← pendingMessageIds queue none
  let nowNs ← perform .now
  let ids ← perform (.listMessages queue)
  dueMessages queue taken nowNs ids

def availableMessagesForGroup (queue group : String) : QueueIo (List Nat) := do
  let taken ← pendingMessageIds queue (some group)
  let acked ← ackedMessageIds queue group
  let nowNs ← perform .now
  let ids ← perform (.listMessages queue)
  dueMessages queue (taken ++ acked) nowNs ids

def markPending (queue : String) (messageId : Nat) (group consumer : String) (deadlineNs : Nat) :
    QueueIo Nat := do
  if ← perform (.queueExists queue) then
    match ← findPendingEntryByKey queue messageId group with
    | some (id, existing) =>
      perform (.deleteMeta id (.pending existing))
      perform (.insertMeta (.pending ⟨queue, group, messageId, existing.deliveryId, consumer, deadlineNs⟩))
      pure existing.deliveryId
    | none =>
      let deliveryId ← perform .newDeliveryId
      perform (.insertMeta (.pending ⟨queue, group, messageId, deliveryId, consumer, deadlineNs⟩))
      pure deliveryId
  else throw (.unknownQueue queue)

def releasePending (deliveryId : Nat) : QueueIo Unit := do
  match ← findPendingByDelivery deliveryId with
  | some (id, row) => perform (.releaseMeta id (.pending row))
  | none => pure ()

section

variable (queue : String) (messageId : Nat)

def removeMessageState : QueueIo Unit := do
  let pending ← perform (.subjectRows .pending queue none (some messageId))
  let acked ← perform (.subjectRows .acked queue none (some messageId))
  let attempts ← perform (.subjectRows .attempts queue none (some messageId))
  (pending ++ acked ++ attempts).forM dropRow

def retireMessage : QueueIo Unit := do
  removeMessageState queue messageId
  perform (.deleteMessage queue messageId)

end

section

variable (deliveryId : Nat)

def ackPending : QueueIo Unit := do
  let (id, row) ← requirePending deliveryId
  perform (.releaseMeta id (.pending row))
  clearAttempts row.queue row.messageId row.group
  retireMessage row.queue row.messageId

def retireForGroup : QueueIo Unit := do
  let (id, row) ← requirePending deliveryId
  perform (.releaseMeta id (.pending row))
  clearAttempts row.queue row.messageId row.group
  perform (.insertMeta (.acked row.queue row.group row.messageId))

def bumpAttempt : QueueIo BumpedAttempt := do
  let (_, row) ← requirePending deliveryId
  let current ← readAttempts row.queue row.messageId row.group
  let next := min (current + 1) u32Max
  writeAttempts row.queue row.messageId row.group next
  pure ⟨next, row.queue, row.messageId, row.group, row.consumer⟩

def readPendingAttempt : QueueIo BumpedAttempt := do
  let (_, row) ← requirePending deliveryId
  let current ← readAttempts row.queue row.messageId row.group
  pure ⟨current, row.queue, row.messageId, row.group, row.consumer⟩

end

section

variable (queue : String) (messageId : Nat)

def readMaxAttempts : QueueIo Nat := do
  let message ← perform (.getMessage queue messageId)
  pure ((message.map (·.maxAttempts)).getD defaultReadMaxAttempts)

def readMessage : QueueIo (Option Value) := do
  let message ← perform (.getMessage queue messageId)
  pure (message.map (·.payload))

def readOrderingKey : QueueIo (Option String) := do
  let message ← perform (.getMessage queue messageId)
  pure (message.bind (·.orderingKey))

end

def anyWithKey (queue key : String) : List Nat → QueueIo Bool
  | [] => pure false
  | messageId :: rest => do
    if (← readOrderingKey queue messageId) = some key then pure true else anyWithKey queue key rest

def orderingKeyInFlight (queue group key : String) : QueueIo Bool := do
  let ids ← pendingMessageIds queue (some group)
  anyWithKey queue key ids

/-- `read_pending_payload(..).ok_or_else(UnknownDelivery)` -/
def requirePayload (deliveryId : Nat) : QueueIo Value := do
  match ← findPendingByDelivery deliveryId with
  | none => throw (.unknownDelivery deliveryId)
  | some (_, row) =>
    match ← readMessage row.queue row.messageId with
    | some payload => pure payload
    | none => throw (.unknownDelivery deliveryId)

def positionCenter : Nat := 2 ^ 32

def ensureCollection (queue : String) : QueueIo Unit := do
  if ← perform (.queueExists queue) then pure () else perform (.createCollection queue)

def enqueueDlq (target : String) (payload : Value) (orderingKey : Option String) : QueueIo Unit := do
  ensureCollection target
  let last ← perform (.positionBoundary target .right)
  let id ← perform (.insertMessage target ((last.map (· + 1)).getD positionCenter) payload 0)
  if orderingKey.isSome then perform (.setMetadata target id none orderingKey) else pure ()

def reclaimExpired (queue : String) (nowNs : Nat) : QueueIo Unit := do
  let rows ← perform (.deadlineRows queue nowNs)
  rows.forM fun entry => perform (.deleteMeta entry.1 entry.2)

end

inductive QueueMode
  | fanout
  | work
  deriving DecidableEq

structure LifecycleConfig where
  lockDurationNs : Nat
  dlqTarget : Option String
  mode : QueueMode

structure DeliveredMessage where
  deliveryId : Nat
  messageId : Nat
  payload : Value
  consumer : String
  deliveryCount : Nat

inductive RetirementOutcome
  | requeued
  | movedToDlq (target : String)
  | dropped
  deriving DecidableEq

namespace LifecycleConfig

variable (config : LifecycleConfig)

variable (queue group : String)

def orderingKeyBlocked (messageId : Nat) : QueueIo Bool := do
  match ← readOrderingKey queue messageId with
  | some key => orderingKeyInFlight queue group key
  | none => pure false

def available : QueueIo (List Nat) :=
  match config.mode with
  | .work => availableMessages queue
  | .fanout => availableMessagesForGroup queue group

section

variable (deliveryId : Nat)

def retire : QueueIo Unit :=
  match config.mode with
  | .work => ackPending deliveryId
  | .fanout => retireForGroup deliveryId

def ack : QueueIo Unit := config.retire deliveryId

def retireExhausted : QueueIo Unit :=
  match config.dlqTarget with
  | some target => do
    let pending ← readPendingAttempt deliveryId
    let payload ← requirePayload deliveryId
    let orderingKey ← readOrderingKey pending.queue pending.messageId
    config.retire deliveryId
    enqueueDlq target payload orderingKey
  | none => config.retire deliveryId

end

/-- `read_message(..).ok_or_else(UnknownQueue)` -/
def requireMessage (queue : String) (messageId : Nat) : QueueIo Value := do
  match ← readMessage queue messageId with
  | some payload => pure payload
  | none => throw (.unknownQueue queue)

variable (queue group consumer : String) (deliveryId : Nat)

def countDelivery : QueueIo Nat :=
  match config.mode with
  | .work => (·.attempts) <$> bumpAttempt deliveryId
  | .fanout => pure 1

def readOne (nowNs messageId : Nat) : QueueIo (Option DeliveredMessage) := do
  let deliveryId ← markPending queue messageId group consumer (nowNs + config.lockDurationNs)
  let deliveryCount ← config.countDelivery deliveryId
  let maxAttempts ← readMaxAttempts queue messageId
  if deliveryCount > maxAttempts then
    config.retireExhausted deliveryId
    pure none
  else
    let payload ← requireMessage queue messageId
    pure (some ⟨deliveryId, messageId, payload, consumer, deliveryCount⟩)

def readLoop (queue group consumer : String) (count nowNs : Nat) :
    List Nat → List DeliveredMessage → QueueIo (List DeliveredMessage)
  | [], out => pure out
  | messageId :: rest, out => do
    if out.length ≥ count then pure out
    else if ← orderingKeyBlocked queue group messageId then readLoop queue group consumer count nowNs rest out
    else
      let delivered ← config.readOne queue group consumer nowNs messageId
      readLoop queue group consumer count nowNs rest (out ++ delivered.toList)

def groupRead (count : Nat) : QueueIo (List DeliveredMessage) := do
  if count = 0 then pure []
  else
    let nowNs ← perform .now
    reclaimExpired queue nowNs
    let available ← config.available queue group
    config.readLoop queue group consumer count nowNs available []

def deliverOne (queue group : String) (nowNs messageId : Nat) : QueueIo (Nat × Nat × Value) := do
  let deliveryId ← markPending queue messageId group "" (nowNs + config.lockDurationNs)
  let payload ← requireMessage queue messageId
  pure (deliveryId, messageId, payload)

def deliverLoop (queue group : String) (count nowNs : Nat) :
    List Nat → List (Nat × Nat × Value) → QueueIo (List (Nat × Nat × Value))
  | [], out => pure out
  | messageId :: rest, out => do
    if out.length ≥ count then pure out
    else if ← orderingKeyBlocked queue group messageId then deliverLoop queue group count nowNs rest out
    else
      let delivered ← config.deliverOne queue group nowNs messageId
      deliverLoop queue group count nowNs rest (out ++ [delivered])

def deliver (queue group : String) (count : Nat) : QueueIo (List (Nat × Nat × Value)) := do
  if count = 0 then pure []
  else
    let nowNs ← perform .now
    reclaimExpired queue nowNs
    let available ← config.available queue group
    config.deliverLoop queue group count nowNs available []

def nackWithRetryDeadline (retryDeadlineNs : Option Nat) : QueueIo RetirementOutcome := do
  let bumped ← bumpAttempt deliveryId
  let maxAttempts ← readMaxAttempts bumped.queue bumped.messageId
  if bumped.attempts ≥ maxAttempts then
    match config.dlqTarget with
    | some target =>
      let payload ← requirePayload deliveryId
      let orderingKey ← readOrderingKey bumped.queue bumped.messageId
      config.retire deliveryId
      enqueueDlq target payload orderingKey
      pure (.movedToDlq target)
    | none =>
      config.retire deliveryId
      pure .dropped
  else
    match retryDeadlineNs with
    | some deadlineNs =>
      let _ ← markPending bumped.queue bumped.messageId bumped.group bumped.consumer deadlineNs
      pure .requeued
    | none =>
      releasePending deliveryId
      pure .requeued

def claimOne (newConsumer : String) (nowNs : Nat) (entry : PendingRow) : QueueIo (List DeliveredMessage) := do
  let bumped ← bumpAttempt entry.deliveryId
  let maxAttempts ← readMaxAttempts bumped.queue bumped.messageId
  if bumped.attempts > maxAttempts then
    config.retireExhausted entry.deliveryId
    pure []
  else
    let payload ← requirePayload entry.deliveryId
    let _ ← markPending entry.queue entry.messageId entry.group newConsumer (nowNs + config.lockDurationNs)
    pure [⟨entry.deliveryId, entry.messageId, payload, newConsumer, bumped.attempts⟩]

def idleFor (nowNs thresholdNs : Nat) (row : PendingRow) : Bool :=
  decide (row.lockDeadlineNs ≤ nowNs) && decide (nowNs - row.lockDeadlineNs ≥ thresholdNs)

/-- `claim_delivering`: the deliveries whose locks expired long enough ago, the oldest first. -/
def claimDelivering (queue newConsumer : String) (minIdleMs : Nat) : QueueIo (List DeliveredMessage) := do
  let nowNs ← perform .now
  let rows ← perform (.subjectRows .pending queue none none)
  let candidates := (rows.filterMap (·.2.pending?)).filter (idleFor nowNs (minIdleMs * 1000000))
  Fallible.gather (config.claimOne newConsumer nowNs)
    (candidates.insertionSort fun a b => a.lockDeadlineNs ≤ b.lockDeadlineNs)

end LifecycleConfig

end RedDB.Queue
