import Mathlib

namespace RedDB.Election

inductive MemberKind
  | data
  | witness
  deriving DecidableEq, Repr

inductive VotingState
  | voting
  | catchingUp
  deriving DecidableEq, Repr

structure Member where
  id : String
  kind : MemberKind
  state : VotingState
  deriving DecidableEq, Repr

def Member.dataVoting (id : String) : Member := { id, kind := .data, state := .voting }

def Member.isVoter (m : Member) : Bool := m.state == .voting

def Member.isElectable (m : Member) : Bool := m.kind == .data && m.isVoter

def quorumThreshold (members : List Member) : Nat := (members.filter Member.isVoter).length / 2 + 1

structure LastVote where
  term : Nat
  votedFor : Option String
  deriving DecidableEq, Repr

def LastVote.default : LastVote := { term := 0, votedFor := none }

structure VoteRequest where
  candidateId : String
  term : Nat
  lastLogLsn : Nat
  dryRun : Bool
  deriving DecidableEq, Repr

section

variable (candidateId : String) (term lastLogLsn : Nat)

def VoteRequest.probe : VoteRequest := { candidateId, term, lastLogLsn, dryRun := true }

def VoteRequest.real : VoteRequest := { candidateId, term, lastLogLsn, dryRun := false }

end

inductive RefusalReason
  | watermarkNotCovered (candidateLsn watermark : Nat)
  | alreadyVoted (term : Nat) (votedFor : String)
  | staleTerm (candidateTerm voterTerm : Nat)
  deriving DecidableEq, Repr

inductive VoteDecision
  | granted
  | refused (reason : RefusalReason)
  deriving DecidableEq, Repr

def VoteDecision.isGranted : VoteDecision → Bool
  | .granted => true
  | .refused _ => false

/-- `Voter::consider` over the record `last` that the store loads: the decision, and the
    record the store holds once it is made. A dry run and a refusal persist nothing. -/
def consider (last : LastVote) (req : VoteRequest) (commitWatermark : Nat) : VoteDecision × LastVote :=
  if req.lastLogLsn < commitWatermark then
    (.refused (.watermarkNotCovered req.lastLogLsn commitWatermark), last)
  else if req.term < last.term then
    (.refused (.staleTerm req.term last.term), last)
  else
    let grant : VoteDecision × LastVote :=
      if req.dryRun then (.granted, last)
      else (.granted, { term := req.term, votedFor := some req.candidateId })
    if req.term = last.term then
      match last.votedFor with
      | some other =>
        if other ≠ req.candidateId then (.refused (.alreadyVoted last.term other), last)
        else (.granted, last)
      | none => grant
    else grant

theorem consider_dryRun (last : LastVote) (req : VoteRequest) (watermark : Nat)
    (dry : req.dryRun = true) : (consider last req watermark).2 = last := by
  unfold consider
  simp only [dry, ↓reduceIte]
  split_ifs <;> try rfl
  split
  · split_ifs <;> rfl
  · rfl

theorem consider_real (last : LastVote) (req : VoteRequest) (watermark : Nat) (real : req.dryRun = false) :
    ((consider last req watermark).1 = .granted ∧
      (consider last req watermark).2 = { term := req.term, votedFor := some req.candidateId } ∧
      (last.term < req.term ∨ last.term = req.term ∧ (last.votedFor = none ∨ last.votedFor = some req.candidateId))) ∨
    ((consider last req watermark).1 ≠ .granted ∧ (consider last req watermark).2 = last) := by
  by_cases covered : req.lastLogLsn < watermark
  · right; simp [consider, covered]
  by_cases stale : req.term < last.term
  · right; simp [consider, covered, stale]
  by_cases same : req.term = last.term
  · rcases voted : last.votedFor with _ | other
    · left
      simp [consider, covered, real, same, voted]
    · by_cases named : other = req.candidateId
      · left
        subst named
        have record : last = { term := req.term, votedFor := some req.candidateId } := by
          rw [same, ← voted]
        have kept : consider last req watermark = (.granted, last) := by
          simp [consider, covered, same, voted]
        rw [kept]
        exact ⟨rfl, record, Or.inr ⟨same.symm, Or.inr rfl⟩⟩
      · right; simp [consider, covered, same, voted, named]
  · left
    have later : last.term < req.term := by omega
    simp [consider, covered, stale, same, real, later]

end RedDB.Election
