import RedDB.Election.Cluster
import RedDB.Library.Quorum

namespace RedDB.Election

open List Library Function

theorem consider_granted_record {last : LastVote} (req : VoteRequest) {watermark : Nat}
    (real : req.dryRun = false) (granted : (consider last req watermark).1 = .granted) :
    (consider last req watermark).2 = { term := req.term, votedFor := some req.candidateId } ∧
      (last.term < req.term ∨ last.term = req.term ∧
        (last.votedFor = none ∨ last.votedFor = some req.candidateId)) := by
  rcases consider_real last req watermark real with ⟨-, record, fresh⟩ | ⟨refused, -⟩
  · exact ⟨record, fresh⟩
  · exact absurd granted refused

theorem Cluster.persist_unchanged {s : Cluster} {peer : String} {req : VoteRequest}
    {answer : VoteDecision × LastVote} (kept : answer.2 = s.stores peer)
    (silent : (answer.1.isGranted && !req.dryRun) = false) : s.persist peer req answer = s := by
  simp [Cluster.persist, kept, silent]

theorem Cluster.deliver_probe (s : Cluster) (peer : String) (req : ElectionRequest)
    (watermark : Nat) (delivery : Delivery) :
    (s.deliver peer req.probe watermark delivery).2 = s := by
  have kept := consider_dryRun (s.stores peer) req.probe watermark rfl
  cases delivery with
  | requestLost => rfl
  | answered | replyLost => exact Cluster.persist_unchanged kept (by simp [ElectionRequest.probe, VoteRequest.probe])

/-- The cluster once `peer` has durably granted its vote to the ballot of `req`. -/
def Cluster.granting (s : Cluster) (peer : String) (req : ElectionRequest) : Cluster :=
  { s with
    stores := Function.update s.stores peer
      { term := req.newTerm, votedFor := some req.candidate.id }
    grants := s.grants ++ [⟨peer, req.newTerm, req.candidate.id⟩] }

theorem Cluster.persist_ballot (s : Cluster) (peer : String) (req : ElectionRequest) (watermark : Nat) :
    let answer := consider (s.stores peer) req.ballot watermark
    (answer.1.isGranted = false ∧ s.persist peer req.ballot answer = s) ∨
    (answer.1 = .granted ∧ s.persist peer req.ballot answer = s.granting peer req) := by
  intro answer
  rcases consider_real (s.stores peer) req.ballot watermark rfl with ⟨granted, record, -⟩ | ⟨refused, kept⟩
  · right
    refine ⟨granted, ?_⟩
    have answered : answer.1 = .granted := granted
    have recorded : answer.2 = { term := req.newTerm, votedFor := some req.candidate.id } := record
    simp [Cluster.persist, Cluster.granting, answered, recorded, VoteDecision.isGranted,
      ElectionRequest.ballot, VoteRequest.real]
  · left
    have silent : answer.1.isGranted = false := by
      cases decided : answer.1 with
      | granted => exact absurd decided refused
      | refused reason => rfl
    exact ⟨silent, Cluster.persist_unchanged kept (by simp [silent])⟩

theorem Cluster.deliver_ballot (s : Cluster) (peer : String) (req : ElectionRequest)
    (watermark : Nat) (delivery : Delivery) :
    ((s.deliver peer req.ballot watermark delivery).1.isGranted = false ∧
      (s.deliver peer req.ballot watermark delivery).2 = s) ∨
    (delivery ≠ .requestLost ∧ (consider (s.stores peer) req.ballot watermark).1 = .granted ∧
      (s.deliver peer req.ballot watermark delivery).2 = s.granting peer req) := by
  cases delivery with
  | requestLost => exact .inl ⟨rfl, rfl⟩
  | answered =>
    rcases s.persist_ballot peer req watermark with ⟨silent, kept⟩ | ⟨granted, kept⟩
    · exact .inl ⟨silent, kept⟩
    · exact .inr ⟨by decide, granted, kept⟩
  | replyLost =>
    rcases s.persist_ballot peer req watermark with ⟨-, kept⟩ | ⟨granted, kept⟩
    · exact .inl ⟨rfl, kept⟩
    · exact .inr ⟨by decide, granted, kept⟩

def Phase.quiet : Phase → Bool
  | .balloting _ _ => false
  | .finished (.elected _ _ _) => false
  | _ => true

section

variable (members : List Member)

inductive Effect (s : Cluster) : Event → Cluster → Prop
  | start (req : ElectionRequest) :
      Effect s (.start req) { s with attempts := s.attempts ++ [⟨req, startPhase members req⟩] }
  | quiet {e : Event} (attempts : List Attempt)
      (kept : ∀ a ∈ attempts, a ∈ s.attempts ∨ ∃ b ∈ s.attempts, a.req = b.req ∧ a.phase.quiet = true) :
      Effect s e { s with attempts }
  | ballotRefused {i watermark : Nat} {delivery : Delivery} {req : ElectionRequest} {peer : String}
      {rest : List String} {votes : Nat}
      (asked : s.attempts[i]? = some ⟨req, .balloting (peer :: rest) votes⟩) :
      Effect s (.ask i watermark delivery) (s.setPhase i req (.balloting rest votes))
  | ballotGranted {i watermark : Nat} {delivery : Delivery} {req : ElectionRequest} {peer : String}
      {rest : List String} {votes : Nat} (decision : VoteDecision)
      (asked : s.attempts[i]? = some ⟨req, .balloting (peer :: rest) votes⟩)
      (arrived : delivery ≠ .requestLost)
      (granted : (consider (s.stores peer) req.ballot watermark).1 = .granted) :
      Effect s (.ask i watermark delivery)
        ((s.granting peer req).setPhase i req (ballotPhase members req rest votes decision))
  | bump {i : Nat} {req : ElectionRequest} (ready : s.attempts[i]? = some ⟨req, .bumping⟩) :
      Effect s (.bump i)
        ((s.bumpTerm req.candidate.id req.newTerm).setPhase i req (openPhase members req))

variable {s : Cluster}

theorem Cluster.mem_set {i : Nat} {old new a : Attempt}
    (found : s.attempts[i]? = some old) (member : a ∈ s.attempts.set i new) :
    a ∈ s.attempts ∨ a = new ∧ old ∈ s.attempts := by
  rcases mem_or_eq_of_mem_set member with member | rfl
  · exact .inl member
  · exact .inr ⟨rfl, mem_of_getElem? found⟩

theorem Effect.quiet_set {e : Event} {i : Nat} {req : ElectionRequest} {old phase : Phase}
    (found : s.attempts[i]? = some ⟨req, old⟩) (silent : phase.quiet = true) :
    Effect members s e (s.setPhase i req phase) := by
  refine .quiet _ fun a member => ?_
  rcases Cluster.mem_set found member with before | ⟨rfl, before⟩
  · exact .inl before
  · exact .inr ⟨_, before, rfl, silent⟩

theorem startPhase_quiet (req : ElectionRequest) : (startPhase members req).quiet = true := by
  unfold startPhase
  split_ifs <;> rfl

theorem probePhase_quiet (rest : List String) (votes : Nat) (decision : VoteDecision) :
    (probePhase members rest votes decision).quiet = true := by
  unfold probePhase
  split_ifs <;> rfl

theorem Attempt.crashAt_cases (node : String) (a : Attempt) :
    a.crashAt node = a ∨ (a.crashAt node).req = a.req ∧ (a.crashAt node).phase.quiet = true := by
  unfold Attempt.crashAt
  split
  · exact .inl rfl
  · split_ifs
    · exact .inr ⟨rfl, rfl⟩
    · exact .inl rfl

theorem step_effect {t : Cluster} {e : Event} (taken : Steps (step members) s e t) :
    Effect members s e t := by
  unfold Steps at taken
  cases e with
  | start req =>
    cases taken
    exact .start req
  | ask i watermark delivery =>
    simp only [step] at taken
    split at taken
    · rename_i req peer rest votes found
      rw [Cluster.deliver_probe] at taken
      cases taken
      exact Effect.quiet_set members found (probePhase_quiet members _ _ _)
    · rename_i req peer rest votes found
      cases taken
      rcases s.deliver_ballot peer req watermark delivery with ⟨silent, kept⟩ | ⟨arrived, granted, kept⟩
      · rw [kept, ballotPhase, silent]
        exact .ballotRefused found
      · rw [kept]
        exact .ballotGranted _ found arrived granted
    · cases taken
  | exhaust i | timeOut i =>
    simp only [step] at taken
    split at taken
    · rename_i found
      cases taken
      exact Effect.quiet_set members found rfl
    · rename_i found
      cases taken
      exact Effect.quiet_set members found rfl
    · cases taken
  | bump i =>
    simp only [step] at taken
    split at taken
    · rename_i found
      cases taken
      exact .bump found
    · cases taken
  | crash node =>
    cases taken
    refine .quiet _ fun a member => ?_
    obtain ⟨b, before, rfl⟩ := mem_map.mp member
    rcases b.crashAt_cases node with same | crashed
    · exact .inl (same.symm ▸ before)
    · exact .inr ⟨b, before, crashed⟩

end

section

variable (members : List Member)

def voterIds : List String := (members.filter Member.isVoter).map Member.id

variable (s : Cluster)

/-- `voter` has spent a vote of `term` on `c`: by opening its own ballot or by a durable grant. -/
def Cluster.HasVote (voter : String) (term : Nat) (c : String) : Prop :=
  (voter = c ∧ (c, term) ∈ s.ballots) ∨ ⟨voter, term, c⟩ ∈ s.grants

/-- `votes` distinct voting members, none of them in `rest`, have voted for `c`. -/
def Cluster.Backed (term : Nat) (c : String) (votes : Nat)
    (rest : List String) : Prop :=
  ∃ backers : List String, backers.Nodup ∧ backers ⊆ voterIds members ∧ backers.length = votes ∧
    ∀ b ∈ backers, b ∉ rest ∧ s.HasVote b term c

def Cluster.Counted (a : Attempt) : Prop :=
  match a.phase with
  | .balloting rest votes =>
    rest.Nodup ∧ rest ⊆ voterIds members ∧ s.Backed members a.req.newTerm a.req.candidate.id votes rest
  | .finished (.elected term votes _) =>
    quorumThreshold members ≤ votes ∧ s.Backed members term a.req.candidate.id votes []
  | _ => True

structure Inv (members : List Member) (s : Cluster) : Prop where
  voters : ∀ a ∈ s.attempts, a.req.candidate.id ∈ voterIds members
  counted : ∀ a ∈ s.attempts, s.Counted members a
  durable : ∀ g ∈ s.grants, g.term < (s.stores g.voter).term ∨
    s.stores g.voter = { term := g.term, votedFor := some g.candidate }
  recorded : ∀ voter c, (s.stores voter).votedFor = some c → ⟨voter, (s.stores voter).term, c⟩ ∈ s.grants
  opened : ∀ c term, (c, term) ∈ s.ballots → term ≤ (s.stores c).term
  single : ∀ voter term c d, s.HasVote voter term c → s.HasVote voter term d → c = d

def Phase.nextBallot : Phase → Option String
  | .balloting (peer :: _) _ => some peer
  | _ => none

/-- The candidates are voting members, no member opens a ballot for a term it has granted to
    another, and no ballot whose log covers the watermark is delivered to a member that has
    opened its own for the same term and whose record still names nobody. -/
def SingleVote : Event → Prop
  | .start req => req.candidate.id ∈ voterIds members
  | .bump i => ∀ a ∈ s.attempts[i]?, ∀ g ∈ s.grants,
    g.voter = a.req.candidate.id → g.term = a.req.newTerm → g.candidate = a.req.candidate.id
  | .ask i watermark delivery => ∀ a ∈ s.attempts[i]?, ∀ peer ∈ a.phase.nextBallot,
    delivery ≠ .requestLost → (peer, a.req.newTerm) ∈ s.ballots →
    s.stores peer = { term := a.req.newTerm, votedFor := none } → a.req.lastLogLsn < watermark
  | _ => True

end

instance (members : List Member) (s : Cluster) : (e : Event) → Decidable (SingleVote members s e)
  | .start _ | .bump _ | .ask _ _ _ => by unfold SingleVote; infer_instance
  | .exhaust _ | .timeOut _ | .crash _ => .isTrue trivial

section

variable {members : List Member}

variable {s t : Cluster} {c voter : String} {term : Nat}

theorem Cluster.HasVote.mono (ballots : s.ballots ⊆ t.ballots)
    (grants : s.grants ⊆ t.grants) (vote : s.HasVote voter term c) :
    t.HasVote voter term c := by
  rcases vote with ⟨own, opened⟩ | granted
  · exact .inl ⟨own, ballots opened⟩
  · exact .inr (grants granted)

variable {votes : Nat} {rest : List String}

section

variable (ballots : s.ballots ⊆ t.ballots) (grants : s.grants ⊆ t.grants)
include ballots grants

theorem Cluster.Backed.mono {fewer : List String}
    (shrunk : fewer ⊆ rest) (backed : s.Backed members term c votes rest) :
    t.Backed members term c votes fewer := by
  obtain ⟨backers, distinct, voters, count, each⟩ := backed
  refine ⟨backers, distinct, voters, count, fun b member => ?_⟩
  exact ⟨fun later => (each b member).1 (shrunk later), (each b member).2.mono ballots grants⟩

theorem Cluster.Counted.mono {a : Attempt} (counted : s.Counted members a) : t.Counted members a := by
  unfold Cluster.Counted at *
  split at counted
  · exact ⟨counted.1, counted.2.1, counted.2.2.mono ballots grants (List.Subset.refl _)⟩
  · exact ⟨counted.1, counted.2.mono ballots grants (List.Subset.refl _)⟩
  · trivial

end

theorem Cluster.counted_of_quiet (s : Cluster) {a : Attempt} (silent : a.phase.quiet = true) :
    s.Counted members a := by
  unfold Cluster.Counted
  split
  · rename_i phase; simp [phase, Phase.quiet] at silent
  · rename_i phase; simp [phase, Phase.quiet] at silent
  · trivial

variable {peer : String}

theorem Cluster.Backed.vote (backed : s.Backed members term c votes (peer :: rest)) (voter : peer ∈ voterIds members)
    (unasked : peer ∉ rest) (vote : s.HasVote peer term c) :
    s.Backed members term c (votes + 1) rest := by
  obtain ⟨backers, distinct, voters, count, each⟩ := backed
  refine ⟨peer :: backers, ?_, ?_, ?_, ?_⟩
  · exact nodup_cons.mpr ⟨fun member => (each peer member).1 mem_cons_self, distinct⟩
  · exact cons_subset.mpr ⟨voter, voters⟩
  · simp [count]
  · intro b member
    rcases mem_cons.mp member with rfl | member
    · exact ⟨unasked, vote⟩
    · exact ⟨fun later => (each b member).1 (mem_cons_of_mem _ later), (each b member).2⟩

theorem peersOf_subset (c : String) : peersOf members c ⊆ voterIds members := by
  intro peer member
  obtain ⟨m, chosen, rfl⟩ := mem_map.mp member
  have voting := mem_filter.mp chosen
  simp only [Bool.and_eq_true] at voting
  exact mem_map.mpr ⟨m, mem_filter.mpr ⟨voting.1, voting.2.1⟩, rfl⟩

theorem not_mem_peersOf (c : String) : c ∉ peersOf members c := by
  intro member
  obtain ⟨m, chosen, same⟩ := mem_map.mp member
  have other := (mem_filter.mp chosen).2
  simp [same] at other

theorem peersOf_nodup (distinct : (members.map Member.id).Nodup) (c : String) : (peersOf members c).Nodup :=
  distinct.sublist (filter_sublist.map Member.id)

theorem Inv.init : Inv members .init where
  voters := by simp [Cluster.init]
  counted := by simp [Cluster.init]
  durable := by simp [Cluster.init]
  recorded := by simp [Cluster.init, LastVote.default]
  opened := by simp [Cluster.init]
  single := by simp [Cluster.init, Cluster.HasVote]

theorem Inv.setAttempts (inv : Inv members s) (attempts : List Attempt)
    (voters : ∀ a ∈ attempts, a.req.candidate.id ∈ voterIds members)
    (counted : ∀ a ∈ attempts, s.Counted members a) : Inv members { s with attempts } where
  voters := voters
  counted := fun a member => (counted a member).mono (List.Subset.refl _) (List.Subset.refl _)
  durable := inv.durable
  recorded := inv.recorded
  opened := inv.opened
  single := inv.single

variable {req : ElectionRequest}

theorem Inv.start (inv : Inv members s) (voter : req.candidate.id ∈ voterIds members) :
    Inv members { s with attempts := s.attempts ++ [⟨req, startPhase members req⟩] } := by
  refine inv.setAttempts _ (fun a member => ?_) (fun a member => ?_)
  · rcases mem_append.mp member with before | new
    · exact inv.voters a before
    · rw [mem_singleton.mp new]
      exact voter
  · rcases mem_append.mp member with before | new
    · exact inv.counted a before
    · rw [mem_singleton.mp new]
      exact s.counted_of_quiet (startPhase_quiet members req)

theorem Inv.quiet (inv : Inv members s) {attempts : List Attempt}
    (kept : ∀ a ∈ attempts, a ∈ s.attempts ∨ ∃ b ∈ s.attempts, a.req = b.req ∧ a.phase.quiet = true) :
    Inv members { s with attempts } := by
  refine inv.setAttempts _ (fun a member => ?_) (fun a member => ?_)
  · rcases kept a member with before | ⟨b, before, same, -⟩
    · exact inv.voters a before
    · rw [same]
      exact inv.voters b before
  · rcases kept a member with before | ⟨b, -, -, silent⟩
    · exact inv.counted a before
    · exact s.counted_of_quiet silent

variable {i : Nat}

theorem Inv.setPhase (inv : Inv members s) {old phase : Phase} (found : s.attempts[i]? = some ⟨req, old⟩)
    (counted : s.Counted members ⟨req, phase⟩) : Inv members (s.setPhase i req phase) := by
  refine inv.setAttempts _ (fun a member => ?_) (fun a member => ?_)
  · rcases Cluster.mem_set found member with before | ⟨rfl, before⟩
    · exact inv.voters a before
    · exact inv.voters ⟨req, old⟩ before
  · rcases Cluster.mem_set found member with before | ⟨rfl, -⟩
    · exact inv.counted a before
    · exact counted

theorem Inv.balloting (inv : Inv members s) (found : s.attempts[i]? = some ⟨req, .balloting rest votes⟩) :
    rest.Nodup ∧ rest ⊆ voterIds members ∧ s.Backed members req.newTerm req.candidate.id votes rest :=
  inv.counted _ (mem_of_getElem? found)

theorem Inv.ballotRefused (inv : Inv members s)
        (asked : s.attempts[i]? = some ⟨req, .balloting (peer :: rest) votes⟩) :
    Inv members (s.setPhase i req (.balloting rest votes)) := by
  obtain ⟨distinct, voters, backed⟩ := inv.balloting asked
  refine inv.setPhase asked ⟨(nodup_cons.mp distinct).2, (cons_subset.mp voters).2, ?_⟩
  exact backed.mono (List.Subset.refl _) (List.Subset.refl _) (subset_cons_self _ _)

theorem Cluster.granting_hasVote (vote : (s.granting peer req).HasVote voter term c) :
    s.HasVote voter term c ∨ voter = peer ∧ term = req.newTerm ∧ c = req.candidate.id := by
  rcases vote with own | granted
  · exact .inl (.inl own)
  · rcases mem_append.mp granted with before | new
    · exact .inl (.inr before)
    · right
      have same := mem_singleton.mp new
      simp only [Grant.mk.injEq] at same
      exact same

variable {watermark : Nat}

theorem Inv.unspent (inv : Inv members s) {d : String}
    (granted : (consider (s.stores peer) req.ballot watermark).1 = .granted)
    (guarded : (peer, req.newTerm) ∈ s.ballots →
      s.stores peer = { term := req.newTerm, votedFor := none } → req.lastLogLsn < watermark)
    (vote : s.HasVote peer req.newTerm d) : d = req.candidate.id := by
  have fresh := (consider_granted_record req.ballot rfl granted).2
  simp only [ElectionRequest.ballot, VoteRequest.real] at fresh
  have granter : ∀ c, ⟨peer, req.newTerm, c⟩ ∈ s.grants → c = req.candidate.id := by
    intro c before
    rcases inv.durable _ before with later | record
    · simp only at later
      omega
    · simp only at record
      simp only [record, lt_self_iff_false, reduceCtorEq, Option.some.injEq, true_and, false_or] at fresh
      exact fresh
  rcases vote with ⟨rfl, opened⟩ | before
  · have reached := inv.opened _ _ opened
    have same : (s.stores peer).term = req.newTerm := by omega
    rcases voted : (s.stores peer).votedFor with _ | c
    · have record : s.stores peer = { term := req.newTerm, votedFor := none } := by
        rw [← same, ← voted]
      have uncovered := guarded opened record
      simp [consider, ElectionRequest.ballot, VoteRequest.real, uncovered] at granted
    · have named := inv.recorded peer c voted
      rw [same] at named
      have other := inv.single peer req.newTerm peer c (.inl ⟨rfl, opened⟩) (.inr named)
      rw [other]
      exact granter c named
  · exact granter d before

theorem Inv.granting (inv : Inv members s) (granted : (consider (s.stores peer) req.ballot watermark).1 = .granted)
    (guarded : (peer, req.newTerm) ∈ s.ballots →
      s.stores peer = { term := req.newTerm, votedFor := none } → req.lastLogLsn < watermark) :
    Inv members (s.granting peer req) where
  voters := inv.voters
  counted := by
    intro a member
    have ballots : s.ballots ⊆ (s.granting peer req).ballots := List.Subset.refl _
    exact (inv.counted a member).mono ballots (subset_append_left _ _)
  durable := by
    have fresh := (consider_granted_record req.ballot rfl granted).2
    simp only [ElectionRequest.ballot, VoteRequest.real] at fresh
    intro g member
    rcases mem_append.mp member with before | new
    · by_cases here : g.voter = peer
      · rcases inv.durable g before with later | record
        · left
          rw [here] at later
          simp only [Cluster.granting, here, update_self]
          omega
        · rw [here] at record
          simp only [Cluster.granting, here, update_self]
          rw [record] at fresh
          rcases fresh with earlier | ⟨same, named⟩
          · exact .inl earlier
          · right
            simp only at same named
            rcases named with none | named
            · cases none
            · rw [← same, named]
      · simp only [Cluster.granting, update_of_ne here]
        exact inv.durable g before
    · right
      rw [mem_singleton.mp new]
      simp [Cluster.granting]
  recorded := by
    intro voter c voted
    by_cases here : voter = peer
    · subst here
      simp only [Cluster.granting, update_self, Option.some.injEq] at voted ⊢
      rw [voted]
      exact mem_append_right _ (mem_singleton_self _)
    · simp only [Cluster.granting, update_of_ne here] at voted ⊢
      exact mem_append_left _ (inv.recorded voter c voted)
  opened := by
    have fresh := (consider_granted_record req.ballot rfl granted).2
    simp only [ElectionRequest.ballot, VoteRequest.real] at fresh
    intro c term opened
    have before := inv.opened c term opened
    by_cases here : c = peer
    · subst here
      simp only [Cluster.granting, update_self]
      omega
    · simp only [Cluster.granting, update_of_ne here]
      exact before
  single := by
    intro voter term c d first second
    rcases Cluster.granting_hasVote first with before | ⟨rfl, rfl, rfl⟩
    · rcases Cluster.granting_hasVote second with before' | ⟨rfl, rfl, rfl⟩
      · exact inv.single voter term c d before before'
      · exact inv.unspent granted guarded before
    · rcases Cluster.granting_hasVote second with before' | ⟨-, -, rfl⟩
      · exact (inv.unspent granted guarded before').symm
      · rfl

theorem Inv.ballotGranted (inv : Inv members s) (decision : VoteDecision)
    (asked : s.attempts[i]? = some ⟨req, .balloting (peer :: rest) votes⟩)
    (granted : (consider (s.stores peer) req.ballot watermark).1 = .granted)
    (guarded : (peer, req.newTerm) ∈ s.ballots →
      s.stores peer = { term := req.newTerm, votedFor := none } → req.lastLogLsn < watermark) :
    Inv members ((s.granting peer req).setPhase i req (ballotPhase members req rest votes decision)) := by
  have after := inv.granting granted guarded
  obtain ⟨distinct, voters, backed⟩ := after.balloting asked
  obtain ⟨unasked, distinct⟩ := nodup_cons.mp distinct
  obtain ⟨voter, voters⟩ := cons_subset.mp voters
  have vote : (s.granting peer req).HasVote peer req.newTerm req.candidate.id :=
    .inr (mem_append_right _ (mem_singleton_self _))
  have counted := backed.vote voter unasked vote
  refine after.setPhase asked ?_
  unfold ballotPhase
  split_ifs with won large
  · exact ⟨large, counted.mono (List.Subset.refl _) (List.Subset.refl _) (nil_subset _)⟩
  · exact ⟨distinct, voters, counted⟩
  · exact ⟨distinct, voters, backed.mono (List.Subset.refl _) (List.Subset.refl _) (subset_cons_self _ _)⟩

theorem LastVote.bump_keeps {last : LastVote} {newTerm : Nat}
    (held : term < last.term ∨ last = { term, votedFor := some c }) :
    term < (last.bump newTerm).term ∨ last.bump newTerm = { term, votedFor := some c } := by
  unfold LastVote.bump
  split_ifs with advances
  · left
    rcases held with later | rfl
    · exact later.trans advances
    · exact advances
  · exact held

theorem LastVote.bump_term (last : LastVote) (newTerm : Nat) :
    last.term ≤ (last.bump newTerm).term ∧ newTerm ≤ (last.bump newTerm).term := by
  unfold LastVote.bump
  split_ifs with advances
  · exact ⟨advances.le, le_refl _⟩
  · exact ⟨le_refl _, not_lt.mp advances⟩

theorem LastVote.bump_votedFor {last : LastVote} {newTerm : Nat}
    (voted : (last.bump newTerm).votedFor = some c) : last.bump newTerm = last := by
  unfold LastVote.bump at *
  split_ifs at * with advances
  rfl

theorem Cluster.bumpTerm_hasVote (vote : (s.bumpTerm req.candidate.id req.newTerm).HasVote voter term c) :
    s.HasVote voter term c ∨ voter = req.candidate.id ∧ term = req.newTerm ∧ c = req.candidate.id := by
  rcases vote with ⟨rfl, opened⟩ | granted
  · rcases mem_append.mp opened with before | new
    · exact .inl (.inl ⟨rfl, before⟩)
    · have same := mem_singleton.mp new
      simp only [Prod.mk.injEq] at same
      exact .inr ⟨same.1, same.2, same.1⟩
  · exact .inl (.inr granted)

theorem Inv.bumpTerm (inv : Inv members s)
    (unspent : ∀ g ∈ s.grants, g.voter = req.candidate.id → g.term = req.newTerm →
      g.candidate = req.candidate.id) : Inv members (s.bumpTerm req.candidate.id req.newTerm) where
  voters := inv.voters
  counted := by
    intro a member
    have ballots : s.ballots ⊆ (s.bumpTerm req.candidate.id req.newTerm).ballots := subset_append_left _ _
    exact (inv.counted a member).mono ballots (List.Subset.refl _)
  durable := by
    intro g member
    by_cases here : g.voter = req.candidate.id
    · have held := inv.durable g member
      rw [here] at held
      simp only [Cluster.bumpTerm, here, update_self]
      exact LastVote.bump_keeps held
    · simp only [Cluster.bumpTerm, update_of_ne here]
      exact inv.durable g member
  recorded := by
    intro voter c voted
    by_cases here : voter = req.candidate.id
    · simp only [Cluster.bumpTerm, here, update_self] at voted ⊢
      have same := LastVote.bump_votedFor voted
      rw [same] at voted ⊢
      exact inv.recorded _ c voted
    · simp only [Cluster.bumpTerm, update_of_ne here] at voted ⊢
      exact inv.recorded voter c voted
  opened := by
    intro c term opened
    have grown := LastVote.bump_term (s.stores req.candidate.id) req.newTerm
    by_cases here : c = req.candidate.id
    · subst here
      simp only [Cluster.bumpTerm, update_self]
      rcases mem_append.mp opened with before | new
      · exact (inv.opened _ term before).trans grown.1
      · have same := mem_singleton.mp new
        simp only [Prod.mk.injEq, true_and] at same
        rw [same]
        exact grown.2
    · simp only [Cluster.bumpTerm, update_of_ne here]
      rcases mem_append.mp opened with before | new
      · exact inv.opened c term before
      · exact absurd (Prod.mk.inj (mem_singleton.mp new)).1 here
  single := by
    have own : ∀ d, s.HasVote req.candidate.id req.newTerm d → d = req.candidate.id := by
      rintro d (⟨same, -⟩ | granted)
      · exact same.symm
      · exact unspent _ granted rfl rfl
    intro voter term c d first second
    rcases Cluster.bumpTerm_hasVote first with before | ⟨rfl, rfl, rfl⟩
    · rcases Cluster.bumpTerm_hasVote second with before' | ⟨rfl, rfl, rfl⟩
      · exact inv.single voter term c d before before'
      · exact own c before
    · rcases Cluster.bumpTerm_hasVote second with before' | ⟨-, -, rfl⟩
      · exact (own d before').symm
      · rfl

theorem Inv.bump (inv : Inv members s) (distinct : (members.map Member.id).Nodup)
    (ready : s.attempts[i]? = some ⟨req, .bumping⟩)
    (unspent : ∀ g ∈ s.grants, g.voter = req.candidate.id → g.term = req.newTerm → g.candidate = req.candidate.id) :
    Inv members ((s.bumpTerm req.candidate.id req.newTerm).setPhase i req (openPhase members req)) := by
  have voter : req.candidate.id ∈ voterIds members := inv.voters _ (mem_of_getElem? ready)
  have own : (s.bumpTerm req.candidate.id req.newTerm).HasVote req.candidate.id req.newTerm req.candidate.id :=
    .inl ⟨rfl, mem_append_right _ (mem_singleton_self _)⟩
  have backed (rest : List String) (unasked : req.candidate.id ∉ rest) :
      (s.bumpTerm req.candidate.id req.newTerm).Backed members req.newTerm req.candidate.id 1 rest := by
    refine ⟨[req.candidate.id], nodup_singleton _, cons_subset.mpr ⟨voter, nil_subset _⟩, rfl, fun b member => ?_⟩
    rw [mem_singleton.mp member]
    exact ⟨unasked, own⟩
  refine (inv.bumpTerm unspent).setPhase ready ?_
  unfold openPhase
  split_ifs with alone
  · exact ⟨alone, backed [] not_mem_nil⟩
  · exact ⟨peersOf_nodup distinct _, peersOf_subset _, backed _ (not_mem_peersOf _)⟩

theorem Inv.step {e : Event} (distinct : (members.map Member.id).Nodup)
    (inv : Inv members s) (admitted : SingleVote members s e) (taken : Steps (step members) s e t) :
    Inv members t := by
  cases step_effect members taken with
  | start req => exact inv.start admitted
  | quiet attempts kept => exact inv.quiet kept
  | ballotRefused asked => exact inv.ballotRefused asked
  | ballotGranted decision asked arrived granted =>
    exact inv.ballotGranted decision asked granted fun opened record => admitted _ asked _ rfl arrived opened record
  | bump ready => exact inv.bump distinct ready (admitted _ ready)

theorem Inv.elected_majority (inv : Inv members s) (elected : s.Elected term c) :
    ∃ backers, Majority (voterIds members) backers ∧ ∀ b ∈ backers, s.HasVote b term c := by
  obtain ⟨a, member, rfl, won⟩ := elected
  have counted := inv.counted a member
  unfold Phase.electedTerm at won
  split at won
  case h_2 => cases won
  rename_i votes needed phase
  cases won
  simp only [Cluster.Counted, phase] at counted
  obtain ⟨large, backers, distinct, voters, count, each⟩ := counted
  refine ⟨backers, ⟨distinct, voters, ?_⟩, fun b member => (each b member).2⟩
  simp only [quorumThreshold] at large
  simp only [voterIds, length_map]
  omega

theorem Inv.elected_unique (inv : Inv members s) {d : String}
    (first : s.Elected term c) (second : s.Elected term d) : c = d := by
  obtain ⟨left, majority, votes⟩ := inv.elected_majority first
  obtain ⟨right, majority', votes'⟩ := inv.elected_majority second
  obtain ⟨b, member, member'⟩ := majority.intersect majority'
  exact inv.single b term c d (votes b member) (votes' b member')

end

theorem elected_unique_of_singleVote (members : List Member) (distinct : (members.map Member.id).Nodup)
    {events : List Event} {s : Cluster}
    (run : Run (Guarded (Steps (step members)) (SingleVote members)) .init events s)
    {term : Nat} {c d : String} (first : s.Elected term c) (second : s.Elected term d) : c = d := by
  have inv : Inv members s := run.invariant (fun _ _ _ before taken => before.step distinct taken.1 taken.2) Inv.init
  exact inv.elected_unique first second

def threeMembers : List Member := [.dataVoting "a", .dataVoting "b", .dataVoting "c"]

def firstElection (id : String) : ElectionRequest :=
  { candidate := .dataVoting id, currentTerm := 0, lastLogLsn := 0, commitWatermark := 0 }

/-- `a` wins its term-1 election with the vote of `c`. -/
def aElected : List Event :=
  [.start (firstElection "a"), .ask 0 0 .answered, .bump 0, .ask 0 0 .requestLost, .ask 0 0 .answered]

theorem elected_unique_of_singleVote_aElected :
    ∃ s, Run (Guarded (Steps (step threeMembers)) (SingleVote threeMembers)) .init aElected s ∧
      s.Elected 1 "a" ∧ ∀ d, s.Elected 1 d → "a" = d := by
  obtain ⟨s, run, elected⟩ := execute_reaches (step threeMembers) (SingleVote threeMembers)
    .init aElected (fun s => decide (s.Elected 1 "a")) (by decide)
  have elected := of_decide_eq_true elected
  exact ⟨s, run, elected, fun d other =>
    elected_unique_of_singleVote threeMembers (by decide) run elected other⟩

/-- `b` asks for votes of the term that `a` has won. -/
def bElectedToo : List Event :=
  aElected ++ [.start (firstElection "b"), .ask 1 0 .answered, .bump 1, .ask 1 0 .answered]

theorem elected_twice_in_term :
    ∃ s, Run (Steps (step threeMembers)) .init bElectedToo s ∧ s.Elected 1 "a" ∧ s.Elected 1 "b" := by
  obtain ⟨s, run, elected⟩ := execute_reaches (step threeMembers) (fun _ _ => True)
    .init bElectedToo (fun s => decide (s.Elected 1 "a" ∧ s.Elected 1 "b")) (by decide)
  exact ⟨s, run.mono fun _ _ _ taken => taken.2, of_decide_eq_true elected⟩

end RedDB.Election
