import RedDB.Transaction.Manager

namespace RedDB.Transaction

open Library Prod

inductive IsolationLevel
  | readUncommitted
  | readCommitted
  | snapshotIsolation
  | serializable
  deriving DecidableEq, Repr

structure SavepointError where
  name : String
  deriving DecidableEq, Repr

structure RollbackToSavepoint where
  savepointXid : Nat
  abortedXids : List Nat
  deriving DecidableEq, Repr

structure TxnContext where
  xid : Nat
  isolation : IsolationLevel
  snapshot : Snapshot
  savepoints : List (String × Nat)
  releasedSubXids : List Nat

namespace TxnContext

section

variable (c : TxnContext)

def writerXid : Nat := (c.savepoints.getLast?.map snd).getD c.xid

def ownXids : Finset Nat := insert c.xid ((c.savepoints.map snd).toFinset ∪ c.releasedSubXids.toFinset)

def retireOrder : List Nat := c.savepoints.map snd ++ c.releasedSubXids ++ [c.xid]

variable (name : String)

def below : List (String × Nat) := c.savepoints.takeWhile (·.1 != name)

def fromFirst : List (String × Nat) := c.savepoints.dropWhile (·.1 != name)

def pushSavepoint (xid : Nat) : TxnContext := { c with savepoints := c.savepoints ++ [(name, xid)] }

def releaseSavepoint : Except SavepointError (Nat × TxnContext) :=
  match c.fromFirst name with
  | [] => .error { name }
  | released => .ok (released.length,
      { c with
        savepoints := c.below name
        releasedSubXids := c.releasedSubXids ++ released.map snd })

def rollbackToSavepoint : Except SavepointError (RollbackToSavepoint × TxnContext) :=
  match c.fromFirst name with
  | [] => .error { name }
  | savepoint :: inner => .ok
      ({ savepointXid := savepoint.2, abortedXids := savepoint.2 :: inner.map snd },
        { c with savepoints := c.below name })

end

end TxnContext

end RedDB.Transaction
