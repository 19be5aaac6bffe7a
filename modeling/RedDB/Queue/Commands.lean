import RedDB.Library.Runs
import RedDB.Queue.Lifecycle

namespace RedDB.Queue

open Library RedDB.Types

inductive DeliveryHandle
  | delivery (deliveryId : Nat)
  | message (group : String) (messageId : Nat)

def DeliveryHandle.Names (handle : DeliveryHandle) (row : PendingRow) : Prop :=
  match handle with
  | .delivery deliveryId => row.deliveryId = deliveryId
  | .message group messageId => row.group = group ∧ row.messageId = messageId

section

variable (config : LifecycleConfig)

section

variable (queue : String)

/-- `resolve_ack_nack_handle`, and the delivery id of a message. -/
def resolveHandle : DeliveryHandle → QueueIo (Nat × Nat)
  | .delivery deliveryId => do
    let (_, row) ← requirePending deliveryId
    if row.queue = queue then pure (deliveryId, row.messageId) else throw (.unknownDelivery deliveryId)
  | .message group messageId => do
    match ← findPendingEntryByKey queue messageId group with
    | some (_, row) => pure (row.deliveryId, messageId)
    | none => throw (.unknownDelivery 0)

variable (handle : DeliveryHandle)

def ackCommand : QueueIo Unit := do
  let (deliveryId, _) ← resolveHandle queue handle
  config.ack deliveryId

def delayRetry (messageId : Nat) (outcome : RetirementOutcome) (dueNs : Option Nat) :
    QueueIo Unit :=
  match outcome, dueNs with
  | .requeued, some due => do
    let orderingKey ← readOrderingKey queue messageId
    perform (.setMetadata queue messageId (some due) orderingKey)
  | _, _ => pure ()

def nackCommand (delayNs : Nat) : QueueIo RetirementOutcome := do
  let (deliveryId, messageId) ← resolveHandle queue handle
  let nowNs ← perform .now
  let dueNs := if delayNs > 0 then some (nowNs + delayNs) else none
  let outcome ← config.nackWithRetryDeadline deliveryId dueNs
  delayRetry queue messageId outcome dueNs
  pure outcome

end

def pushCenter : Nat := (2 ^ 64 - 1) / 2

def pushPosition (side : QueueSide) (boundary : Option Nat) : Nat :=
  match boundary with
  | none => pushCenter
  | some position =>
    match side with
    | .left => position - 1
    | .right => min (position + 1) (2 ^ 64 - 1)

structure PushRequest where
  side : QueueSide
  payload : Value
  maxAttempts : Nat
  availableAtNs : Option Nat
  orderingKey : Option String

def pushCommand (queue : String) (request : PushRequest) : QueueIo Unit := do
  if ← perform (.queueExists queue) then
    let boundary ← perform (.positionBoundary queue request.side)
    let id ← perform (.insertMessage queue (pushPosition request.side boundary) request.payload request.maxAttempts)
    perform (.setMetadata queue id request.availableAtNs request.orderingKey)
  else throw (.unknownQueue queue)

end

structure QueueRun where
  data : QueueData
  returned : List (String × Nat)

inductive QueueEvent
  | create (queue : String)
  | push (queue : String) (request : PushRequest)
  | read (queue group consumer : String) (count : Nat)
  | deliver (queue group : String) (count : Nat)
  | claim (queue consumer : String) (minIdleMs : Nat)
  | ack (queue : String) (handle : DeliveryHandle)
  | nack (queue : String) (handle : DeliveryHandle) (delayNs : Nat)
  | tick (ns : Nat)

section

variable (configs : String → LifecycleConfig)

def QueueRun.call {α : Type} (s : QueueRun) (p : QueueIo α) (answer : α → List (String × Nat)) : QueueRun :=
  let (result, data) := Resumption.execute act p.run s.data
  match result with
  | .ok a => ⟨data, s.returned ++ answer a⟩
  | .error _ => { s with data }

def commandStep (s : QueueRun) : QueueEvent → QueueRun
  | .create queue => s.call (ensureCollection queue) fun _ => []
  | .push queue request => s.call (pushCommand queue request) fun _ => []
  | .read queue group consumer count =>
    s.call ((configs queue).groupRead queue group consumer count) (·.map fun d => (queue, d.messageId))
  | .deliver queue group count =>
    s.call ((configs queue).deliver queue group count) (·.map fun d => (queue, d.2.1))
  | .claim queue consumer minIdleMs =>
    s.call ((configs queue).claimDelivering queue consumer minIdleMs) (·.map fun d => (queue, d.messageId))
  | .ack queue handle => s.call (ackCommand (configs queue) queue handle) fun _ => []
  | .nack queue handle delayNs => s.call (nackCommand (configs queue) queue handle delayNs) fun _ => []
  | .tick ns => { s with data := { s.data with nowNs := s.data.nowNs + ns } }

def QueueRun.initial (nowNs : Nat) : QueueRun := ⟨.empty nowNs, []⟩

end

end RedDB.Queue
