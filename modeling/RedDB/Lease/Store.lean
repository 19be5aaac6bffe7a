import RedDB.Library.Interleave
import RedDB.Library.Runs

namespace RedDB.Lease

open Library

structure WriterLease where
  databaseKey : String
  holderId : String
  term : Nat
  generation : Nat
  acquiredAtMs : Nat
  expiresAtMs : Nat
  deriving DecidableEq, Repr

def WriterLease.isExpired (self : WriterLease) (nowMs : Nat) : Bool := self.expiresAtMs ≤ nowMs

def WriterLease.fencedByTerm (self : WriterLease) (currentTerm : Nat) : Bool := self.term < currentTerm

def u64Max : Nat := 2 ^ 64 - 1

def saturatingAdd (a b : Nat) : Nat := min u64Max (a + b)

inductive BackendError
  | preconditionFailed (message : String)
  deriving DecidableEq, Repr

inductive LeaseError
  | backend (error : BackendError)
  | held (current : WriterLease) (nowMs : Nat)
  | lostRace (attemptedHolder : String) (observed : WriterLease)
  | stale (attemptedHolder : String) (attemptedGeneration : Nat) (observed : Option WriterLease)
  | fenced (attemptedHolder : String) (attemptedTerm currentTerm : Nat)
  deriving DecidableEq, Repr

inductive ConditionalPut
  | ifAbsent
  | ifVersion (version : Nat)
  deriving DecidableEq, Repr

/-- The atomic operations a call makes on the clock and on the lease object of its database key. -/
inductive BackendOp
  | now
  | objectVersion
  | download
  | uploadConditional (lease : WriterLease) (condition : ConditionalPut)
  | deleteConditional (version : Nat)
  deriving DecidableEq, Repr

def BackendOp.Reply : BackendOp → Type
  | .now => Nat
  | .objectVersion => Option Nat
  | .download => Option WriterLease
  | .uploadConditional _ _ => Bool
  | .deleteConditional _ => Bool

abbrev LeaseCall := Resumption BackendOp BackendOp.Reply

def nowUnixMillis : LeaseCall Nat := Resumption.perform BackendOp.now

def objectVersion : LeaseCall (Option Nat) := Resumption.perform BackendOp.objectVersion

/-- `read_lease` and the download of `current_versioned`. -/
def download : LeaseCall (Option WriterLease) := Resumption.perform BackendOp.download

def publishConditional (lease : WriterLease) (condition : ConditionalPut) : LeaseCall Bool :=
  Resumption.perform (BackendOp.uploadConditional lease condition)

def deleteConditional (version : Nat) : LeaseCall Bool := Resumption.perform (BackendOp.deleteConditional version)

def currentVersioned : LeaseCall (Except LeaseError (Option (WriterLease × Nat))) := do
  match ← objectVersion with
  | none => return .ok none
  | some before =>
    match ← download with
    | none => return .ok none
    | some lease =>
      let after ← objectVersion
      if after = some before then return .ok (some (lease, before))
      else return .error (.backend (.preconditionFailed "lease object changed while being read"))

def missingLease (databaseKey : String) : WriterLease := ⟨databaseKey, "<missing>", 0, 0, 0, 0⟩

section

variable (databaseKey holderId : String) (nowMs : Nat)

def acquireRaceError : LeaseCall (Except LeaseError WriterLease) := do
  match ← download with
  | some observed =>
    if observed.isExpired nowMs = false ∧ observed.holderId ≠ holderId then
      return .error (.held observed nowMs)
    else return .error (.lostRace holderId observed)
  | none => return .error (.lostRace holderId (missingLease databaseKey))

/-- The part of `try_acquire_for_term` from the conditional write on. -/
def claim (newLease : WriterLease) (condition : ConditionalPut) : LeaseCall (Except LeaseError WriterLease) := do
  if ← publishConditional newLease condition then
    match ← download with
    | some observed =>
      if observed.holderId = holderId ∧ observed.generation = newLease.generation then return .ok newLease
      else return .error (.lostRace holderId observed)
    | none => return .error (.lostRace holderId (missingLease databaseKey))
  else acquireRaceError databaseKey holderId nowMs

end

def nextGeneration (holderId : String) (term nowMs : Nat) : Option (WriterLease × Nat) → Except LeaseError Nat
  | none => .ok 1
  | some (lease, _) =>
    if term < lease.term then .error (.fenced holderId term lease.term)
    else if lease.isExpired nowMs = false ∧ lease.holderId ≠ holderId then .error (.held lease nowMs)
    else .ok (saturatingAdd lease.generation 1)

def putCondition : Option (WriterLease × Nat) → ConditionalPut
  | some (_, version) => .ifVersion version
  | none => .ifAbsent

variable (databaseKey holderId : String)

def tryAcquireForTerm (ttlMs term : Nat) :
    LeaseCall (Except LeaseError WriterLease) := do
  let nowMs ← nowUnixMillis
  match ← currentVersioned with
  | .error error => return .error error
  | .ok current =>
    match nextGeneration holderId term nowMs current with
    | .error error => return .error error
    | .ok generation =>
      claim databaseKey holderId nowMs
        ⟨databaseKey, holderId, term, generation, nowMs, saturatingAdd nowMs ttlMs⟩ (putCondition current)

def defaultReplicationTerm : Nat := 1

def tryAcquire (ttlMs : Nat) : LeaseCall (Except LeaseError WriterLease) :=
  tryAcquireForTerm databaseKey holderId ttlMs defaultReplicationTerm

section

variable (lease : WriterLease)

def matchesPublished (observed : WriterLease) : Bool :=
  observed.holderId = lease.holderId && observed.generation = lease.generation

def staleError (observed : Option WriterLease) : LeaseError := .stale lease.holderId lease.generation observed

def refresh (ttlMs : Nat) : LeaseCall (Except LeaseError WriterLease) := do
  let nowMs ← nowUnixMillis
  match ← currentVersioned with
  | .error error => return .error error
  | .ok none => return .error (staleError lease none)
  | .ok (some (observed, version)) =>
    if matchesPublished lease observed then
      let next := { lease with expiresAtMs := saturatingAdd nowMs ttlMs }
      if ← publishConditional next (.ifVersion version) then return .ok next
      else return .error (staleError lease (← download))
    else return .error (staleError lease (some observed))

def refreshForTerm (ttlMs currentTerm : Nat) : LeaseCall (Except LeaseError WriterLease) :=
  if lease.fencedByTerm currentTerm then return .error (.fenced lease.holderId lease.term currentTerm)
  else refresh lease ttlMs

def release : LeaseCall (Except LeaseError Unit) := do
  match ← currentVersioned with
  | .error error => return .error error
  | .ok none => return .error (staleError lease none)
  | .ok (some (observed, version)) =>
    if matchesPublished lease observed then
      if ← deleteConditional version then return .ok ()
      else return .error (staleError lease (← download))
    else return .error (staleError lease (some observed))

end

inductive Request
  | tryAcquire (holderId : String) (ttlMs : Nat)
  | tryAcquireForTerm (holderId : String) (ttlMs term : Nat)
  | refresh (lease : WriterLease) (ttlMs : Nat)
  | refreshForTerm (lease : WriterLease) (ttlMs currentTerm : Nat)
  | release (lease : WriterLease)
  deriving DecidableEq, Repr

inductive Outcome
  | acquired (lease : WriterLease)
  | refreshed (lease : WriterLease)
  | released
  | failed (error : LeaseError)
  deriving DecidableEq, Repr

def outcome {α : Type} (onOk : α → Outcome) : Except LeaseError α → Outcome
  | .ok a => onOk a
  | .error error => .failed error

def program (databaseKey : String) : Request → LeaseCall Outcome
  | .tryAcquire holderId ttlMs => outcome .acquired <$> tryAcquire databaseKey holderId ttlMs
  | .tryAcquireForTerm holderId ttlMs term =>
    outcome .acquired <$> tryAcquireForTerm databaseKey holderId ttlMs term
  | .refresh lease ttlMs => outcome .refreshed <$> refresh lease ttlMs
  | .refreshForTerm lease ttlMs currentTerm =>
    outcome .refreshed <$> refreshForTerm lease ttlMs currentTerm
  | .release lease => outcome (fun _ => .released) <$> release lease

/-- The shared clock and the lease object of one database key, whose versions are counted by its writes.
The rest is history: the write that started each generation and every written lease, the acquisitions that
succeeded, each with its call, and every lease a call returned. -/
structure LeaseSpace where
  nowMs : Nat
  object : Option (WriterLease × Nat)
  writes : Nat
  issued : List (WriterLease × Nat)
  written : List WriterLease
  acquired : List (WriterLease × Nat)
  granted : List WriterLease
  deriving DecidableEq, Repr

namespace LeaseSpace

def initial (nowMs : Nat) : LeaseSpace := ⟨nowMs, none, 0, [], [], [], []⟩

def Admits (self : LeaseSpace) : ConditionalPut → Prop
  | .ifAbsent => self.object = none
  | .ifVersion version => self.object.map (·.2) = some version

instance (self : LeaseSpace) (condition : ConditionalPut) : Decidable (self.Admits condition) :=
  match condition with
  | .ifAbsent => inferInstanceAs (Decidable (self.object = none))
  | .ifVersion version => inferInstanceAs (Decidable (self.object.map (·.2) = some version))

def write (self : LeaseSpace) (call : Nat) (lease : WriterLease) : LeaseSpace :=
  { self with
    object := some (lease, self.writes)
    writes := self.writes + 1
    issued := if self.object.map (·.1.generation) = some lease.generation then self.issued
      else self.issued ++ [(lease, call)]
    written := self.written ++ [lease] }

def perform (call : Nat) : (o : BackendOp) → LeaseSpace → o.Reply × LeaseSpace
  | .now, self => (self.nowMs, self)
  | .objectVersion, self => (self.object.map (·.2), self)
  | .download, self => (self.object.map (·.1), self)
  | .uploadConditional lease condition, self =>
    if self.Admits condition then (true, self.write call lease) else (false, self)
  | .deleteConditional version, self =>
    if self.Admits (.ifVersion version) then (true, { self with object := none }) else (false, self)

def finish (call : Nat) : Outcome → LeaseSpace → LeaseSpace
  | .acquired lease, self =>
    { self with acquired := self.acquired ++ [(lease, call)], granted := self.granted ++ [lease] }
  | .refreshed lease, self => { self with granted := self.granted ++ [lease] }
  | .released, self => self
  | .failed _, self => self

end LeaseSpace

def leases : Resource LeaseSpace BackendOp BackendOp.Reply Outcome where
  perform := LeaseSpace.perform
  finish := LeaseSpace.finish

inductive LeaseEvent
  | tick (ms : Nat)
  | start (request : Request)
  | resume (call : Nat)
  deriving DecidableEq, Repr

abbrev LeasePool := Pool LeaseSpace BackendOp BackendOp.Reply Outcome

def Request.Known (request : Request) (s : LeaseSpace) : Prop :=
  match request with
  | .tryAcquire _ _ | .tryAcquireForTerm _ _ _ => True
  | .refresh lease _ | .refreshForTerm lease _ _ | .release lease => lease ∈ s.granted

instance (request : Request) (s : LeaseSpace) : Decidable (request.Known s) :=
  match request with
  | .tryAcquire _ _ | .tryAcquireForTerm _ _ _ => inferInstanceAs (Decidable True)
  | .refresh lease _ | .refreshForTerm lease _ _ | .release lease =>
    inferInstanceAs (Decidable (lease ∈ s.granted))

def step (databaseKey : String) (pool : LeasePool) : LeaseEvent → Option LeasePool
  | .tick ms => some ⟨{ pool.shared with nowMs := pool.shared.nowMs + ms }, pool.threads⟩
  | .start request =>
    if request.Known pool.shared then some (leases.spawn pool (program databaseKey request)) else none
  | .resume call => leases.resume pool call

end RedDB.Lease
