import RedDB.Transaction.Isolation
import RedDB.Transaction.Nesting
import RedDB.Transaction.State

namespace RedDB.Transaction

open Library

/-- Why a transaction's ids are being retired; `resume` is a rollback to a savepoint. -/
inductive Goal
  | commit
  | rollback
  | resume
  deriving DecidableEq, Repr

inductive Session
  | idle
  | allocated (xid : Nat) (isolation : IsolationLevel)
  | registered (xid : Nat) (isolation : IsolationLevel)
  | running (context : TxnContext)
  | retiring (goal : Goal) (context : TxnContext) (pending : List Nat)

/-- The writes of a transaction: the id each was stamped with, and what savepoints make of them. -/
structure Journal where
  stamps : List Nat
  nesting : Nesting
  deriving DecidableEq, Repr

def Journal.empty : Journal := { stamps := [], nesting := .empty }

structure Committed where
  context : TxnContext
  journal : Journal
  capturesBefore : Nat

structure System where
  manager : SnapshotManager
  sessions : Table Nat (Session × Journal)
  captures : List (Option Nat × Snapshot)
  committed : List Committed

inductive Event
  | begin (conn : Nat) (isolation : IsolationLevel)
  | register (conn : Nat)
  | takeSnapshot (conn : Nat)
  | savepoint (conn : Nat) (name : String)
  | write (conn : Nat)
  | release (conn : Nat) (name : String)
  | rollbackTo (conn : Nat) (name : String)
  | commit (conn : Nat)
  | refuse (conn : Nat)
  | rollback (conn : Nat)
  | retire (conn : Nat)
  | capture
  | autocommit
  | observe (xid : Nat)
  deriving DecidableEq, Repr

namespace System

def init : System :=
  { manager := .new, sessions := { keys := ∅, value := fun _ => (.idle, .empty) }, captures := []
    committed := [] }

section

variable (s : System)

variable (conn : Nat)

def session : Session := ((s.sessions.get? conn).map Prod.fst).getD .idle

def journal : Journal := ((s.sessions.get? conn).map Prod.snd).getD .empty

def move (session : Session) (journal : Journal) (m : SnapshotManager) : System :=
  { s with manager := m, sessions := s.sessions.insert conn (session, journal) }

def retireOne (goal : Goal) (m : SnapshotManager) (xid : Nat) : SnapshotManager :=
  match goal with
  | .commit => m.commit xid
  | .rollback | .resume => m.rollback xid

/-- The last id of a transaction has been retired, leaving the manager `m`. -/
def finish (context : TxnContext) (m : SnapshotManager) : Goal → System
  | .commit =>
    { s.move conn .idle .empty m with committed :=
        s.committed ++ [{ context, journal := s.journal conn, capturesBefore := s.captures.length }] }
  | .rollback => s.move conn .idle .empty m
  | .resume => s.move conn (.running context) (s.journal conn) m

def step : Event → Option System
  | .begin conn isolation =>
    match s.session conn with
    | .idle =>
      let began := s.manager.begin
      some (s.move conn (.allocated began.1 isolation) .empty began.2)
    | _ => none
  | .register conn =>
    match s.session conn with
    | .allocated xid isolation =>
      some (s.move conn (.registered xid isolation) .empty
        (if isolation = .serializable then s.manager.beginSerializable xid else s.manager))
    | _ => none
  | .takeSnapshot conn =>
    match s.session conn with
    | .registered xid isolation =>
      let taken := s.manager.snapshot xid
      let context : TxnContext := { xid, isolation, snapshot := taken.1, savepoints := [], releasedSubXids := [] }
      some { s.move conn (.running context) .empty taken.2 with
        captures := s.captures ++ [(some xid, taken.1)] }
    | _ => none
  | .savepoint conn name =>
    match s.session conn with
    | .running context =>
      let began := s.manager.begin
      let journal := s.journal conn
      some (s.move conn (.running (context.pushSavepoint name began.1))
        { journal with nesting := journal.nesting.savepoint name journal.stamps.length } began.2)
    | _ => none
  | .write conn =>
    match s.session conn with
    | .running context =>
      let journal := s.journal conn
      some (s.move conn (.running context)
        { stamps := journal.stamps ++ [context.writerXid]
          nesting := journal.nesting.write journal.stamps.length } s.manager)
    | _ => none
  | .release conn name =>
    match s.session conn with
    | .running context =>
      match context.releaseSavepoint name with
      | .error _ => some s
      | .ok (_, context) =>
        let journal := s.journal conn
        some (s.move conn (.running context) { journal with nesting := journal.nesting.release name } s.manager)
    | _ => none
  | .rollbackTo conn name =>
    match s.session conn with
    | .running context =>
      match context.rollbackToSavepoint name with
      | .error _ => some s
      | .ok (rollback, context) =>
        let journal := s.journal conn
        some (s.move conn (.retiring .resume context rollback.abortedXids)
          { journal with nesting := journal.nesting.rollbackTo name } s.manager)
    | _ => none
  | .commit conn =>
    match s.session conn with
    | .running context =>
      some (s.move conn (.retiring .commit context context.retireOrder) (s.journal conn) s.manager)
    | _ => none
  | .refuse conn | .rollback conn =>
    match s.session conn with
    | .running context =>
      some (s.move conn (.retiring .rollback context context.retireOrder) (s.journal conn) s.manager)
    | _ => none
  | .retire conn =>
    match s.session conn with
    | .retiring goal context [xid] => some (s.finish conn context (retireOne goal s.manager xid) goal)
    | .retiring goal context (xid :: pending) =>
      some (s.move conn (.retiring goal context pending) (s.journal conn) (retireOne goal s.manager xid))
    | _ => none
  | .capture => some { s with captures := s.captures ++ [(none, s.manager.freshReadSnapshot)] }
  | .autocommit => some { s with manager := s.manager.allocateCommittedXid.2 }
  | .observe xid => some { s with manager := s.manager.observeCommittedXid xid }

def CounterBelowMax : Event → Prop
  | .begin _ _ | .savepoint _ _ => s.manager.nextXid + 1 < maxXid
  | .autocommit => s.manager.pool.stop ≤ s.manager.pool.next →
    s.manager.nextXid + autocommitPoolBatch < maxXid
  | .observe xid => xid + 1 < maxXid
  | _ => True

end

instance (s : System) : (e : Event) → Decidable (s.CounterBelowMax e)
  | .begin _ _ | .savepoint _ _ | .observe _ => Nat.decLt _ _
  | .autocommit => inferInstanceAs (Decidable (_ ≤ _ → _ < _))
  | .register _ | .takeSnapshot _ | .write _ | .release _ _ | .rollbackTo _ _ | .commit _ | .refuse _
  | .rollback _ | .retire _ | .capture => .isTrue trivial

section

variable (s : System) (conn other : Nat) (σ : Session) (j : Journal) (m : SnapshotManager)
include s conn other σ j m

@[simp] theorem session_move : (s.move conn σ j m).session other = if other = conn then σ else s.session other := by
  by_cases same : other = conn <;> simp [session, move, Table.get?_insert, same]

@[simp] theorem journal_move : (s.move conn σ j m).journal other = if other = conn then j else s.journal other := by
  by_cases same : other = conn <;> simp [journal, move, Table.get?_insert, same]

end

inductive Effect (s : System) : Event → System → Prop
  | begin {conn : Nat} {isolation : IsolationLevel} (free : s.session conn = .idle) :
      Effect s (.begin conn isolation)
        (s.move conn (.allocated s.manager.begin.1 isolation) .empty s.manager.begin.2)
  | register {conn xid : Nat} {isolation : IsolationLevel}
      (found : s.session conn = .allocated xid isolation) :
      Effect s (.register conn) (s.move conn (.registered xid isolation) .empty
        (if isolation = .serializable then s.manager.beginSerializable xid else s.manager))
  | takeSnapshot {conn xid : Nat} {isolation : IsolationLevel}
      (found : s.session conn = .registered xid isolation) :
      Effect s (.takeSnapshot conn)
        { s.move conn (.running ⟨xid, isolation, (s.manager.snapshot xid).1, [], []⟩) .empty
            (s.manager.snapshot xid).2 with
          captures := s.captures ++ [(some xid, (s.manager.snapshot xid).1)] }
  | savepoint {conn : Nat} {name : String} {context : TxnContext}
      (found : s.session conn = .running context) :
      Effect s (.savepoint conn name)
        (s.move conn (.running (context.pushSavepoint name s.manager.begin.1)) ⟨(s.journal conn).stamps,
            (s.journal conn).nesting.savepoint name (s.journal conn).stamps.length⟩ s.manager.begin.2)
  | write {conn : Nat} {context : TxnContext} (found : s.session conn = .running context) :
      Effect s (.write conn) (s.move conn (.running context) ⟨(s.journal conn).stamps ++ [context.writerXid],
          (s.journal conn).nesting.write (s.journal conn).stamps.length⟩ s.manager)
  | release {conn released : Nat} {name : String} {context left : TxnContext}
      (found : s.session conn = .running context)
      (split : context.releaseSavepoint name = .ok (released, left)) :
      Effect s (.release conn name) (s.move conn (.running left)
        ⟨(s.journal conn).stamps, (s.journal conn).nesting.release name⟩ s.manager)
  | rollbackTo {conn : Nat} {name : String} {context left : TxnContext} {rollback : RollbackToSavepoint}
      (found : s.session conn = .running context)
      (split : context.rollbackToSavepoint name = .ok (rollback, left)) :
      Effect s (.rollbackTo conn name) (s.move conn (.retiring .resume left rollback.abortedXids)
        ⟨(s.journal conn).stamps, (s.journal conn).nesting.rollbackTo name⟩ s.manager)
  | retireAll {e : Event} {conn : Nat} {context : TxnContext} (goal : Goal) (whole : goal ≠ .resume)
      (found : s.session conn = .running context) :
      Effect s e (s.move conn (.retiring goal context context.retireOrder) (s.journal conn) s.manager)
  | retire {conn xid next : Nat} {goal : Goal} {context : TxnContext} {pending : List Nat}
      (found : s.session conn = .retiring goal context (xid :: next :: pending)) :
      Effect s (.retire conn) (s.move conn (.retiring goal context (next :: pending)) (s.journal conn)
        (retireOne goal s.manager xid))
  | finish {conn xid : Nat} {goal : Goal} {context : TxnContext}
      (found : s.session conn = .retiring goal context [xid]) :
      Effect s (.retire conn) (s.finish conn context (retireOne goal s.manager xid) goal)
  | capture : Effect s .capture { s with captures := s.captures ++ [(none, s.manager.freshReadSnapshot)] }
  | autocommit : Effect s .autocommit { s with manager := s.manager.allocateCommittedXid.2 }
  | observe {xid : Nat} : Effect s (.observe xid) { s with manager := s.manager.observeCommittedXid xid }
  | unchanged {e : Event} : Effect s e s

theorem step_effect {s t : System} {e : Event} (taken : Steps step s e t) : Effect s e t := by
  unfold Steps at taken
  cases e with
  | begin conn isolation | register conn | takeSnapshot conn | savepoint conn name | write conn =>
    cases found : s.session conn <;> simp only [step, found, reduceCtorEq] at taken
    cases taken
    constructor
    exact found
  | release conn name =>
    cases found : s.session conn <;> simp only [step, found, reduceCtorEq] at taken
    rename_i context
    cases split : context.releaseSavepoint name <;> simp only [split] at taken
    · cases taken
      exact .unchanged
    · cases taken
      exact .release found split
  | rollbackTo conn name =>
    cases found : s.session conn <;> simp only [step, found, reduceCtorEq] at taken
    rename_i context
    cases split : context.rollbackToSavepoint name <;> simp only [split] at taken
    · cases taken
      exact .unchanged
    · cases taken
      exact .rollbackTo found split
  | commit conn =>
    cases found : s.session conn <;> simp only [step, found, reduceCtorEq] at taken
    cases taken
    exact .retireAll .commit (by decide) found
  | refuse conn | rollback conn =>
    cases found : s.session conn <;> simp only [step, found, reduceCtorEq] at taken
    cases taken
    exact .retireAll .rollback (by decide) found
  | retire conn =>
    simp only [step] at taken
    split at taken
    · rename_i found
      cases taken
      exact .finish found
    · rename_i goal context xid pending final found
      cases taken
      cases pending with
      | nil => exact absurd rfl final
      | cons next pending => exact .retire found
    · cases taken
  | capture =>
    cases taken
    exact .capture
  | autocommit =>
    cases taken
    exact .autocommit
  | observe xid =>
    cases taken
    exact .observe

end System

end RedDB.Transaction
