import RedDB.Library.Runs
import RedDB.Queue.Lifecycle

namespace RedDB.Queue

open Library RedDB.Types

structure Mark where
  call : Nat
  message : Nat
  deadlineNs : Nat
  atNs : Nat
  deriving DecidableEq

inductive LogEntry
  | marked (mark : Mark)
  | released (message : Nat)
  deriving DecidableEq

/-- What the readers of one queue share: the store, the lock of the queue's reads, and the history of
    deliveries, releases and answers. -/
structure ReadSpace where
  data : QueueData
  lock : Option Nat
  log : List LogEntry
  returned : List (Nat × List DeliveredMessage)

section

variable (queue : String) (call : Nat)

def noted (s : ReadSpace) : StoreOp → List LogEntry
  | .insertMeta (.pending row) =>
    if row.queue = queue then [.marked ⟨call, row.messageId, row.lockDeadlineNs, s.data.nowNs⟩] else []
  | .releaseMeta _ (.pending row) => if row.queue = queue then [.released row.messageId] else []
  | _ => []

def lockAfter (lock : Option Nat) : StoreOp → Option Nat
  | .lockReads => some call
  | .unlockReads => none
  | _ => lock

def ReadSpace.perform (o : StoreOp) (s : ReadSpace) : Reply o × ReadSpace :=
  ((act o s.data).1,
    { s with data := (act o s.data).2, lock := lockAfter call s.lock o, log := s.log ++ noted queue call s o })

abbrev ReadAnswer := Except QueueStoreError (List DeliveredMessage)

def ReadSpace.finish (answer : ReadAnswer) (s : ReadSpace) : ReadSpace :=
  match answer with
  | .ok delivered => { s with returned := s.returned ++ [(call, delivered)] }
  | .error _ => s

def readers : Resource ReadSpace StoreOp Reply ReadAnswer where
  perform call o s := s.perform queue call o
  finish call answer s := s.finish call answer

end

section

abbrev ReadCall := Resumption StoreOp Reply

inductive ReadPath
  | immediate
  | waiting (wakes : Nat)
  | redwire (wakes : Nat)
  deriving DecidableEq

structure ReadRequest where
  group : String
  consumer : String
  count : Nat
  path : ReadPath

def probes (read : ReadCall ReadAnswer) : Nat → ReadCall ReadAnswer
  | 0 => read
  | wakes + 1 => do
    match ← read with
    | .ok [] => probes read wakes
    | answer => pure answer

variable (config : LifecycleConfig)

variable (queue : String)

/-- `do_read` of `group_read_with_optional_wait`. -/
def lockedRead (request : ReadRequest) : ReadCall ReadAnswer := do
  let _ ← Resumption.perform .lockReads
  let answer ← (config.groupRead queue request.group request.consumer request.count).run
  let _ ← Resumption.perform .unlockReads
  pure answer

/-- `do_read` of `redwire_queue_wait_json`. -/
def unlockedRead (request : ReadRequest) : ReadCall ReadAnswer :=
  (config.groupRead queue request.group request.consumer request.count).run

def readProgram (request : ReadRequest) : ReadCall ReadAnswer :=
  match request.path with
  | .immediate => lockedRead config queue request
  | .waiting wakes => probes (lockedRead config queue request) wakes
  | .redwire wakes => probes (unlockedRead config queue request) wakes

end

abbrev ReadPool := Pool ReadSpace StoreOp Reply ReadAnswer

/-- Time passes, producers push, other calls release deliveries and retire messages, and reads start and go on
    by one operation. -/
inductive ReadEvent
  | tick (ns : Nat)
  | push (position : Nat) (payload : Value) (maxAttempts : Nat)
  | release (id : Nat) (row : PendingRow)
  | retire (id : Nat)
  | start (request : ReadRequest)
  | resume (call : Nat)

section

variable (config : LifecycleConfig) (queue : String)

def blocked (pool : ReadPool) (call : Nat) : Bool :=
  match pool.threads[call]? with
  | some (.call .lockReads _) => pool.shared.lock.isSome
  | _ => false

def ReadSpace.environment (s : ReadSpace) : ReadEvent → ReadSpace
  | .tick ns => { s with data := { s.data with nowNs := s.data.nowNs + ns } }
  | .push position payload maxAttempts =>
    { s with data := s.data.addMessage queue position payload maxAttempts }
  | .release id row =>
    { s with
      data := s.data.removeRow id (.pending row)
      log := s.log ++ if row.queue = queue then [.released row.messageId] else [] }
  | .retire id => { s with data := s.data.removeMessage queue id }
  | _ => s

def readStep (pool : ReadPool) : ReadEvent → Option ReadPool
  | .start request => some ((readers queue).spawn pool (readProgram config queue request))
  | .resume call => if blocked pool call then none else (readers queue).resume pool call
  | event => some ⟨pool.shared.environment queue event, pool.threads⟩

def idle (nowNs : Nat) : ReadPool := ⟨⟨{ QueueData.empty nowNs with queues := [queue] }, none, [], []⟩, []⟩

end

def ReadSpace.Given (s : ReadSpace) (call message : Nat) : Prop :=
  ∃ delivered, (call, delivered) ∈ s.returned ∧ ∃ d ∈ delivered, d.messageId = message

/-- Of two calls that were given one message, one took the message's lock after that of the other had expired
    or was released. -/
def ReadSpace.Exclusive (s : ReadSpace) : Prop :=
  ∀ call other message, call ≠ other → s.Given call message → s.Given other message →
    ∃ (before : List LogEntry) (first : Mark) (between : List LogEntry) (second : Mark) (after : List LogEntry),
      s.log = before ++ .marked first :: between ++ .marked second :: after ∧
        first.message = message ∧ second.message = message ∧
        (first.call = call ∧ second.call = other ∨ first.call = other ∧ second.call = call) ∧
        (.released message ∈ between ∨ first.deadlineNs ≤ second.atNs)

end RedDB.Queue
