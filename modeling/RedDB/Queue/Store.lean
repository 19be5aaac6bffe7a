import RedDB.Library.CrashLogic
import RedDB.Types.Value

namespace RedDB.Queue

open Library RedDB.Types

structure Message where
  queue : String
  id : Nat
  position : Nat
  payload : Value
  attempts : Nat
  maxAttempts : Nat
  availableAtNs : Option Nat
  orderingKey : Option String

/-- A delivery that is not yet settled. Its id stands for the counter that the printed id is a hash of. -/
structure PendingRow where
  queue : String
  group : String
  messageId : Nat
  deliveryId : Nat
  consumer : String
  lockDeadlineNs : Nat
  deriving DecidableEq

inductive MetaRow
  | pending (row : PendingRow)
  | acked (queue group : String) (messageId : Nat)
  | attempts (queue group : String) (messageId attempts : Nat)
  deriving DecidableEq

inductive MetaKind
  | pending
  | acked
  | attempts
  deriving DecidableEq

namespace MetaRow

def kind : MetaRow → MetaKind
  | pending _ => .pending
  | acked _ _ _ => .acked
  | attempts _ _ _ _ => .attempts

def queue : MetaRow → String
  | pending row => row.queue
  | acked queue _ _ => queue
  | attempts queue _ _ _ => queue

def group : MetaRow → String
  | pending row => row.group
  | acked _ group _ => group
  | attempts _ group _ _ => group

def messageId : MetaRow → Nat
  | pending row => row.messageId
  | acked _ _ messageId => messageId
  | attempts _ _ messageId _ => messageId

def pending? : MetaRow → Option PendingRow
  | pending row => some row
  | _ => none

end MetaRow

/-- The queue collections, their messages and the meta rows, with the counters that ids are taken from. -/
structure QueueData where
  nowNs : Nat
  queues : List String
  messages : List Message
  rows : List (Nat × MetaRow)
  nextId : Nat
  nextDelivery : Nat

inductive QueueSide
  | left
  | right
  deriving DecidableEq

/-- One read or write of the store. A row is deleted as the row that was read under its id, and
    `releaseMeta` is the same write where a delivery gives its lock up. -/
inductive StoreOp
  | now
  | queueExists (queue : String)
  | subjectRows (kind : MetaKind) (queue : String) (group : Option String) (messageId : Option Nat)
  | deadlineRows (queue : String) (nowNs : Nat)
  | deliveryRows (deliveryId : Nat)
  | newDeliveryId
  | insertMeta (row : MetaRow)
  | deleteMeta (id : Nat) (row : MetaRow)
  | releaseMeta (id : Nat) (row : MetaRow)
  | listMessages (queue : String)
  | getMessage (queue : String) (id : Nat)
  | setAttempts (queue : String) (id attempts : Nat)
  | setMetadata (queue : String) (id : Nat) (availableAtNs : Option Nat) (orderingKey : Option String)
  | deleteMessage (queue : String) (id : Nat)
  | createCollection (queue : String)
  | positionBoundary (queue : String) (side : QueueSide)
  | insertMessage (queue : String) (position : Nat) (payload : Value) (maxAttempts : Nat)
  | lockReads
  | unlockReads

@[reducible] def Reply : StoreOp → Type
  | .now => Nat
  | .queueExists _ => Bool
  | .subjectRows _ _ _ _ => List (Nat × MetaRow)
  | .deadlineRows _ _ => List (Nat × MetaRow)
  | .deliveryRows _ => List (Nat × MetaRow)
  | .newDeliveryId => Nat
  | .listMessages _ => List Nat
  | .getMessage _ _ => Option Message
  | .positionBoundary _ _ => Option Nat
  | .insertMessage _ _ _ _ => Nat
  | _ => Unit

namespace QueueData

variable (s : QueueData)

def empty (nowNs : Nat) : QueueData := ⟨nowNs, [], [], [], 1, 0⟩

def subject (kind : MetaKind) (queue : String) (group : Option String) (messageId : Option Nat) :
    List (Nat × MetaRow) :=
  s.rows.filter fun entry =>
    entry.2.kind == kind && entry.2.queue == queue && group.all (· == entry.2.group) &&
      messageId.all (· == entry.2.messageId)

def expired (queue : String) (nowNs : Nat) : List (Nat × MetaRow) :=
  (s.subject .pending queue none none).filter fun entry =>
    entry.2.pending?.any fun row => decide (row.lockDeadlineNs ≤ nowNs)

def delivery (deliveryId : Nat) : List (Nat × MetaRow) :=
  s.rows.filter fun entry => entry.2.pending?.any (·.deliveryId == deliveryId)

section

variable (queue : String)

def on : List Message := s.messages.filter (·.queue == queue)

def ordered : List Nat := ((s.on queue).insertionSort fun a b => a.position ≤ b.position).map (·.id)

def find (id : Nat) : Option Message := s.messages.find? fun message => message.queue == queue && message.id == id

def updateMessage (id : Nat) (f : Message → Message) : QueueData :=
  { s with
    messages := s.messages.map fun message =>
      if message.queue = queue ∧ message.id = id then f message else message }

def removeMessage (id : Nat) : QueueData :=
  { s with messages := s.messages.filter fun message => !(message.queue == queue && message.id == id) }

def addMessage (position : Nat) (payload : Value) (maxAttempts : Nat) : QueueData :=
  { s with
    messages := s.messages ++ [⟨queue, s.nextId, position, payload, 0, maxAttempts, none, none⟩]
    nextId := s.nextId + 1 }

end

def addRow (row : MetaRow) : QueueData := { s with rows := s.rows ++ [(s.nextId, row)], nextId := s.nextId + 1 }

def removeRow (id : Nat) (row : MetaRow) : QueueData := { s with rows := s.rows.filter (· ≠ (id, row)) }

def boundary (queue : String) (side : QueueSide) : Option Nat :=
  match side with
  | .right => ((s.on queue).map (·.position)).max?
  | .left => ((s.on queue).map (·.position)).min?

end QueueData

open QueueData in
def act (o : StoreOp) (s : QueueData) : Reply o × QueueData :=
  match o with
  | .now => (s.nowNs, s)
  | .queueExists queue => (decide (queue ∈ s.queues), s)
  | .subjectRows kind queue group messageId => (s.subject kind queue group messageId, s)
  | .deadlineRows queue nowNs => (s.expired queue nowNs, s)
  | .deliveryRows deliveryId => (s.delivery deliveryId, s)
  | .newDeliveryId => (s.nextDelivery, { s with nextDelivery := s.nextDelivery + 1 })
  | .insertMeta row => ((), s.addRow row)
  | .deleteMeta id row => ((), s.removeRow id row)
  | .releaseMeta id row => ((), s.removeRow id row)
  | .listMessages queue => (s.ordered queue, s)
  | .getMessage queue id => (s.find queue id, s)
  | .setAttempts queue id attempts => ((), s.updateMessage queue id fun m => { m with attempts })
  | .setMetadata queue id availableAtNs orderingKey =>
    ((), s.updateMessage queue id fun m => { m with availableAtNs, orderingKey })
  | .deleteMessage queue id => ((), s.removeMessage queue id)
  | .createCollection queue => ((), { s with queues := s.queues ++ [queue] })
  | .positionBoundary queue side => (s.boundary queue side, s)
  | .insertMessage queue position payload maxAttempts =>
    (s.nextId, s.addMessage queue position payload maxAttempts)
  | .lockReads => ((), s)
  | .unlockReads => ((), s)

end RedDB.Queue
