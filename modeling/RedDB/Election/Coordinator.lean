import RedDB.Election.Vote

namespace RedDB.Election

structure ElectionRequest where
  candidate : Member
  currentTerm : Nat
  lastLogLsn : Nat
  commitWatermark : Nat
  deriving DecidableEq, Repr

section

variable (req : ElectionRequest)

def ElectionRequest.newTerm : Nat := (req.currentTerm + 1) % 2 ^ 64

def ElectionRequest.electable : Bool := req.candidate.isElectable && decide (req.commitWatermark ≤ req.lastLogLsn)

def ElectionRequest.probe : VoteRequest := .probe req.candidate.id req.newTerm req.lastLogLsn

def ElectionRequest.ballot : VoteRequest := .real req.candidate.id req.newTerm req.lastLogLsn

end

inductive ElectionOutcome
  | elected (term votes needed : Nat)
  | probeFailed (votes needed : Nat)
  | lost (term votes needed : Nat)
  | notElectable
  | timedOut (votes needed : Nat)
  deriving DecidableEq, Repr

def peersOf (members : List Member) (candidateId : String) : List String :=
  (members.filter fun m => m.isVoter && m.id != candidateId).map Member.id

end RedDB.Election
