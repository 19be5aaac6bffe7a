import RedDB.Election.Coordinator
import RedDB.Library.Runs

namespace RedDB.Election

/-- Where one call of `run` stands: the peers it has still to ask and the votes it counts. -/
inductive Phase
  | probing (rest : List String) (votes : Nat)
  | bumping
  | balloting (rest : List String) (votes : Nat)
  | finished (outcome : ElectionOutcome)
  | crashed
  deriving DecidableEq, Repr

structure Attempt where
  req : ElectionRequest
  phase : Phase
  deriving DecidableEq, Repr

structure Grant where
  voter : String
  term : Nat
  candidate : String
  deriving DecidableEq, Repr

/-- The durable record of every node and every election started so far. `ballots` and
    `grants` are the history of real ballots opened and of real votes granted. -/
structure Cluster where
  stores : String → LastVote
  attempts : List Attempt
  ballots : List (String × Nat)
  grants : List Grant

def Cluster.init : Cluster := { stores := fun _ => .default, attempts := [], ballots := [], grants := [] }

inductive Delivery
  | answered
  | requestLost
  | replyLost
  deriving DecidableEq, Repr

inductive Event
  | start (req : ElectionRequest)
  | ask (attempt watermark : Nat) (delivery : Delivery)
  | exhaust (attempt : Nat)
  | timeOut (attempt : Nat)
  | bump (attempt : Nat)
  | crash (node : String)
  deriving DecidableEq, Repr

def unreachableRefusal (req : VoteRequest) : VoteDecision := .refused (.staleTerm req.term (2 ^ 64 - 1))

/-- `bump_term`: the node's durable term advances and names no candidate yet. -/
def LastVote.bump (last : LastVote) (newTerm : Nat) : LastVote :=
  if last.term < newTerm then { term := newTerm, votedFor := none } else last

def Cluster.bumpTerm (s : Cluster) (node : String) (newTerm : Nat) : Cluster :=
  { s with
    stores := Function.update s.stores node ((s.stores node).bump newTerm)
    ballots := s.ballots ++ [(node, newTerm)] }

section

variable (s : Cluster) (peer : String) (req : VoteRequest)

def Cluster.persist (answer : VoteDecision × LastVote) : Cluster :=
  { s with
    stores := Function.update s.stores peer answer.2
    grants := if answer.1.isGranted && !req.dryRun then
        s.grants ++ [⟨peer, req.term, req.candidateId⟩] else s.grants }

def Cluster.deliver (watermark : Nat) : Delivery → VoteDecision × Cluster
  | .requestLost => (unreachableRefusal req, s)
  | .answered =>
    let answer := consider (s.stores peer) req watermark
    (answer.1, s.persist peer req answer)
  | .replyLost =>
    (unreachableRefusal req, s.persist peer req (consider (s.stores peer) req watermark))

end

section

variable (members : List Member)

variable (req : ElectionRequest) (s : Cluster)

def startPhase : Phase :=
  if req.electable then
    if quorumThreshold members ≤ 1 then .bumping
    else .probing (peersOf members req.candidate.id) 1
  else .finished .notElectable

def probePhase (rest : List String) (votes : Nat) (decision : VoteDecision) : Phase :=
  if decision.isGranted then
    if quorumThreshold members ≤ votes + 1 then .bumping else .probing rest (votes + 1)
  else .probing rest votes

def openPhase : Phase :=
  if quorumThreshold members ≤ 1 then
    .finished (.elected req.newTerm 1 (quorumThreshold members))
  else .balloting (peersOf members req.candidate.id) 1

def ballotPhase (rest : List String) (votes : Nat) (decision : VoteDecision) : Phase :=
  if decision.isGranted then
    if quorumThreshold members ≤ votes + 1 then
      .finished (.elected req.newTerm (votes + 1) (quorumThreshold members))
    else .balloting rest (votes + 1)
  else .balloting rest votes

def Cluster.setPhase (i : Nat) (req : ElectionRequest) (phase : Phase) : Cluster :=
  { s with attempts := s.attempts.set i ⟨req, phase⟩ }

def Attempt.crashAt (node : String) (a : Attempt) : Attempt :=
  match a.phase with
  | .finished _ => a
  | _ => if a.req.candidate.id = node then { a with phase := .crashed } else a

def step : Event → Option Cluster
  | .start req => some { s with attempts := s.attempts ++ [⟨req, startPhase members req⟩] }
  | .ask i watermark delivery =>
    match s.attempts[i]? with
    | some ⟨req, .probing (peer :: rest) votes⟩ =>
      let answer := s.deliver peer req.probe watermark delivery
      some (answer.2.setPhase i req (probePhase members rest votes answer.1))
    | some ⟨req, .balloting (peer :: rest) votes⟩ =>
      let answer := s.deliver peer req.ballot watermark delivery
      some (answer.2.setPhase i req (ballotPhase members req rest votes answer.1))
    | _ => none
  | .exhaust i =>
    match s.attempts[i]? with
    | some ⟨req, .probing [] votes⟩ =>
      some (s.setPhase i req (.finished (.probeFailed votes (quorumThreshold members))))
    | some ⟨req, .balloting [] votes⟩ =>
      some (s.setPhase i req (.finished (.lost req.newTerm votes (quorumThreshold members))))
    | _ => none
  | .timeOut i =>
    match s.attempts[i]? with
    | some ⟨req, .probing (_ :: _) votes⟩ | some ⟨req, .balloting (_ :: _) votes⟩ =>
      some (s.setPhase i req (.finished (.timedOut votes (quorumThreshold members))))
    | _ => none
  | .bump i =>
    match s.attempts[i]? with
    | some ⟨req, .bumping⟩ =>
      some ((s.bumpTerm req.candidate.id req.newTerm).setPhase i req (openPhase members req))
    | _ => none
  | .crash node => some { s with attempts := s.attempts.map (Attempt.crashAt node) }

end

def Phase.electedTerm : Phase → Option Nat
  | .finished (.elected term _ _) => some term
  | _ => none

/-- Some call of `run` for candidate `c` has returned `Elected` under `term`. -/
def Cluster.Elected (s : Cluster) (term : Nat) (c : String) : Prop :=
  ∃ a ∈ s.attempts, a.req.candidate.id = c ∧ a.phase.electedTerm = some term

instance (s : Cluster) (term : Nat) (c : String) : Decidable (s.Elected term c) :=
  inferInstanceAs (Decidable (∃ a ∈ s.attempts, a.req.candidate.id = c ∧ a.phase.electedTerm = some term))

end RedDB.Election
