import RedDB.Auth.Policies

namespace RedDB.Auth

open List

structure Hit where
  policyId : String
  sid : Option String

structure TrailEntry where
  policyId : String
  sid : Option String
  matched : Bool
  effect : Effect
  whySkipped : Option String

structure SimulationHit where
  policyId : String
  sid : Option String
  index : Nat

structure SimulationOutcome where
  decision : Decision
  reason : String
  trail : List TrailEntry

section

variable (action : String) (resource : ResourceRef) (ctx : EvalContext)

variable (policies : List Policy) (p : Policy)

def Policy.outsideTenant : Bool := p.tenant.any fun tenant => resource.tenant != some tenant

def evaluateStatements (p : Policy) : Option Hit → List Statement → Except Decision (Option Hit)
  | allowHit, [] => .ok allowHit
  | allowHit, st :: rest =>
    if !conditionHolds st.condition resource ctx then evaluateStatements p allowHit rest
    else if !statementMatches st action resource ctx then evaluateStatements p allowHit rest
    else
      match st.effect with
      | .deny => .error (.deny p.id st.sid)
      | .allow => evaluateStatements p (allowHit.or (some ⟨p.id, st.sid⟩)) rest

def evaluatePolicies : Option Hit → List Policy → Except Decision (Option Hit)
  | allowHit, [] => .ok allowHit
  | allowHit, p :: rest =>
    if p.outsideTenant resource then evaluatePolicies allowHit rest
    else do
      let allowHit ← evaluateStatements action resource ctx p allowHit p.statements
      evaluatePolicies allowHit rest

def evaluate : Decision :=
  match evaluatePolicies action resource ctx none policies with
  | .error decision => decision
  | .ok (some hit) => .allow hit.policyId hit.sid
  | .ok none => .defaultDeny

def trailEntry (st : Statement) : TrailEntry :=
  let entry (matched : Bool) (why : Option String) : TrailEntry := ⟨p.id, st.sid, matched, st.effect, why⟩
  if p.outsideTenant resource then entry false (some "outside policy tenant")
  else if !conditionHolds st.condition resource ctx then entry false (some "condition not met")
  else if statementMatches st action resource ctx then entry true none
  else if !st.actions.any (actionMatches · action) then entry false (some "no action match")
  else if !st.resources.any (resourceMatches · resource ctx) then entry false (some "no resource match")
  else entry true none

structure Simulation where
  trail : List TrailEntry
  allowHit : Option SimulationHit
  denyHit : Option SimulationHit

def simulateStatements (p : Policy) : Nat → Simulation → List Statement → Simulation
  | _, s, [] => s
  | idx, s, st :: rest =>
    let entry := trailEntry action resource ctx p st
    let s := { s with trail := s.trail ++ [entry] }
    if entry.matched then
      match st.effect with
      | .deny => { s with denyHit := some ⟨p.id, st.sid, idx⟩ }
      | .allow =>
        simulateStatements p (idx + 1) { s with allowHit := s.allowHit.or (some ⟨p.id, st.sid, idx⟩) } rest
    else simulateStatements p (idx + 1) s rest

def simulatePolicies : Simulation → List Policy → Simulation
  | s, [] => s
  | s, p :: rest =>
    let s := simulateStatements action resource ctx p 0 s p.statements
    match s.denyHit with
    | some _ => s
    | none => simulatePolicies s rest

def SimulationHit.reason (verb : String) (hit : SimulationHit) : String :=
  verb ++ " at " ++ hit.policyId ++ ".statement[" ++ toString hit.index ++ "]" ++ (match hit.sid with
    | some s => " (sid=" ++ s ++ ")"
    | none => "")

def simulate : SimulationOutcome :=
  let s := simulatePolicies action resource ctx ⟨[], none, none⟩ policies
  match s.denyHit with
  | some hit => ⟨.deny hit.policyId hit.sid, hit.reason "deny", s.trail⟩
  | none =>
    match s.allowHit with
    | some hit => ⟨.allow hit.policyId hit.sid, hit.reason "allow", s.trail⟩
    | none => ⟨.defaultDeny, "no statement matched (default deny)", s.trail⟩

end

inductive DecisionKind
  | allow
  | deny
  | defaultDeny
  | adminBypass
  deriving DecidableEq

def Decision.kind : Decision → DecisionKind
  | .allow _ _ => .allow
  | .deny _ _ => .deny
  | .defaultDeny => .defaultDeny
  | .adminBypass => .adminBypass

def DecisionKind.denies : DecisionKind → Bool
  | .deny => true
  | .defaultDeny => true
  | _ => false

/-- The purpose of the evaluator: one deny settles the matter, and without a vote access is
    refused. -/
def denyOverrides (votes : List Effect) : DecisionKind :=
  if .deny ∈ votes then .deny else if .allow ∈ votes then .allow else .defaultDeny

theorem denyOverrides_congr {votes other : List Effect} (same : ∀ effect, effect ∈ votes ↔ effect ∈ other) :
    denyOverrides votes = denyOverrides other := by
  simp only [denyOverrides, same]

section

variable (action : String) (resource : ResourceRef) (ctx : EvalContext)

def Statement.applies (st : Statement) : Bool :=
  conditionHolds st.condition resource ctx && statementMatches st action resource ctx

def Policy.votes (p : Policy) : List Effect :=
  if p.outsideTenant resource then []
  else (p.statements.filter (Statement.applies action resource ctx)).map Statement.effect

theorem Policy.mem_votes {p : Policy} {effect : Effect} :
    effect ∈ p.votes action resource ctx ↔ p.outsideTenant resource = false ∧
      ∃ st ∈ p.statements, st.applies action resource ctx = true ∧ st.effect = effect := by
  unfold votes
  by_cases outside : p.outsideTenant resource = true
  · simp [outside]
  · simp [Bool.eq_false_of_not_eq_true outside, and_assoc]

def votes (policies : List Policy) : List Effect := policies.flatMap (Policy.votes action resource ctx)

theorem mem_votes_iff {policies : List Policy} {effect : Effect} :
    effect ∈ votes action resource ctx policies ↔ ∃ p ∈ policies, p.outsideTenant resource = false ∧
      ∃ st ∈ p.statements, st.applies action resource ctx = true ∧ st.effect = effect := by
  simp only [votes, mem_flatMap, Policy.mem_votes]

end

/-- The evaluation came to its result from these votes, with `hit` the allow it had before them. -/
def Settles (hit : Option Hit) (votes : List Effect) : Except Decision (Option Hit) → Prop
  | .error decision => decision.kind = .deny ∧ .deny ∈ votes
  | .ok found => .deny ∉ votes ∧ (found.isSome = true ↔ hit.isSome = true ∨ .allow ∈ votes)

theorem Settles.bind {hit : Option Hit} {votes later : List Effect} {result : Except Decision (Option Hit)}
    {next : Option Hit → Except Decision (Option Hit)} (settles : Settles hit votes result)
    (continues : ∀ found, Settles found later (next found)) :
    Settles hit (votes ++ later) (result >>= next) := by
  cases result with
  | error decision => exact ⟨settles.1, mem_append_left _ settles.2⟩
  | ok found =>
    have rest := continues found
    change Settles hit (votes ++ later) (next found)
    cases last : next found with
    | error decision =>
      rw [last] at rest
      exact ⟨rest.1, mem_append_right _ rest.2⟩
    | ok final =>
      rw [last] at rest
      refine ⟨?_, ?_⟩
      · rw [mem_append]
        exact not_or.mpr ⟨settles.1, rest.1⟩
      · rw [rest.2, settles.2, mem_append, or_assoc]

section

variable (action : String) (resource : ResourceRef) (ctx : EvalContext)

section

variable (p : Policy)

variable (hit : Option Hit)

theorem evaluateStatements_skips {st : Statement}
    (fails : ¬ st.applies action resource ctx = true) (rest : List Statement) :
    evaluateStatements action resource ctx p hit (st :: rest) =
      evaluateStatements action resource ctx p hit rest := by
  simp only [Statement.applies, Bool.and_eq_true, not_and_or, Bool.not_eq_true] at fails
  simp only [evaluateStatements]
  rcases fails with fails | fails <;> simp [fails]

theorem evaluateStatements_settles (statements : List Statement) :
    Settles hit ((statements.filter (Statement.applies action resource ctx)).map Statement.effect)
      (evaluateStatements action resource ctx p hit statements) := by
  induction statements generalizing hit with
  | nil => simp [evaluateStatements, Settles]
  | cons st rest ih =>
    by_cases applies : st.applies action resource ctx = true
    · rw [filter_cons_of_pos applies, map_cons]
      obtain ⟨holds, matched⟩ := Bool.and_eq_true_iff.mp applies
      simp only [evaluateStatements, holds, matched, Bool.not_true, Bool.false_eq_true, if_false]
      cases effect : st.effect with
      | deny => simp [Settles, Decision.kind]
      | allow =>
        have one : Settles hit [.allow] (.ok (hit.or (some ⟨p.id, st.sid⟩))) := by simp [Settles]
        exact one.bind fun _ => ih _
    · rw [filter_cons_of_neg applies, evaluateStatements_skips action resource ctx p hit applies]
      exact ih hit

theorem evaluatePolicies_settles (policies : List Policy) :
    Settles hit (votes action resource ctx policies) (evaluatePolicies action resource ctx hit policies) := by
  induction policies generalizing hit with
  | nil => simp [evaluatePolicies, Settles, votes]
  | cons p rest ih =>
    rw [votes, flatMap_cons]
    by_cases outside : p.outsideTenant resource = true
    · simp only [evaluatePolicies, Policy.votes, outside, if_true]
      exact ih hit
    · simp only [evaluatePolicies, Policy.votes, outside, Bool.false_eq_true, if_false]
      exact (evaluateStatements_settles action resource ctx p hit p.statements).bind ih

theorem kind_evaluate (policies : List Policy) :
    (evaluate action resource ctx policies).kind = denyOverrides (votes action resource ctx policies) := by
  have settles := evaluatePolicies_settles action resource ctx none policies
  unfold evaluate
  cases result : evaluatePolicies action resource ctx none policies with
  | error decision =>
    rw [result] at settles
    simp [denyOverrides, settles.1, settles.2]
  | ok found =>
    rw [result] at settles
    obtain ⟨clear, allowed⟩ := settles
    cases found with
    | none =>
      have none_allowed : Effect.allow ∉ votes action resource ctx policies := by simpa using allowed
      simp [denyOverrides, clear, none_allowed, Decision.kind]
    | some hit =>
      have some_allowed : Effect.allow ∈ votes action resource ctx policies := by simpa using allowed
      simp [denyOverrides, clear, some_allowed, Decision.kind]

theorem trailEntry_matched (st : Statement) : (trailEntry action resource ctx p st).matched =
      (!p.outsideTenant resource && st.applies action resource ctx) := by
  unfold trailEntry Statement.applies
  by_cases outside : p.outsideTenant resource = true
  · simp [outside]
  · by_cases holds : conditionHolds st.condition resource ctx = true
    · by_cases matched : statementMatches st action resource ctx = true
      · simp [outside, holds, matched]
      · -- A statement whose actions and resources both match would have matched.
        have covers : st.covers ctx action resource = false := by
          by_contra covered
          exact matched (by simp [statementMatches, Bool.eq_true_of_not_eq_false covered])
        rw [Statement.covers, Bool.and_eq_false_iff] at covers
        rcases covers with fails | fails
        · simp [outside, holds, matched, fails]
        · by_cases acted : st.actions.any (actionMatches · action) = true
          · simp only [acted]
            simp [outside, holds, matched, fails]
          · simp only [acted]
            simp [outside, holds, matched]
    · simp [outside, holds]

def SimulationHit.toHit (hit : SimulationHit) : Hit := ⟨hit.policyId, hit.sid⟩

def Simulation.Agrees (s : Simulation) : Except Decision (Option Hit) → Prop
  | .error decision => ∃ hit, s.denyHit = some hit ∧ decision = .deny hit.policyId hit.sid
  | .ok hit => s.denyHit = none ∧ s.allowHit.map SimulationHit.toHit = hit

theorem simulateStatements_agrees (inside : p.outsideTenant resource = false) (index : Nat)
    (s : Simulation) (open_ : s.denyHit = none) (statements : List Statement) :
    (simulateStatements action resource ctx p index s statements).Agrees
      (evaluateStatements action resource ctx p (s.allowHit.map SimulationHit.toHit) statements) := by
  induction statements generalizing index s with
  | nil => exact ⟨open_, rfl⟩
  | cons st rest ih =>
    have entry := trailEntry_matched action resource ctx p st
    rw [inside, Bool.not_false, Bool.true_and] at entry
    by_cases applies : st.applies action resource ctx = true
    · rw [applies] at entry
      obtain ⟨holds, matched⟩ := Bool.and_eq_true_iff.mp applies
      simp only [simulateStatements, evaluateStatements, entry, holds, matched, Bool.not_true,
        Bool.false_eq_true, if_true, if_false]
      cases st.effect with
      | deny => exact ⟨_, rfl, rfl⟩
      | allow =>
        have kept : (s.allowHit.or (some ⟨p.id, st.sid, index⟩)).map SimulationHit.toHit =
            (s.allowHit.map SimulationHit.toHit).or (some ⟨p.id, st.sid⟩) := by
          cases s.allowHit <;> rfl
        rw [← kept]
        exact ih _ { s with trail := _, allowHit := _ } open_
    · rw [Bool.eq_false_of_not_eq_true applies] at entry
      rw [evaluateStatements_skips action resource ctx p _ applies]
      simp only [simulateStatements, entry, Bool.false_eq_true, if_false]
      exact ih _ { s with trail := _ } open_

theorem simulateStatements_outside (outside : p.outsideTenant resource = true) (index : Nat)
    (s : Simulation) (statements : List Statement) :
    (simulateStatements action resource ctx p index s statements).denyHit = s.denyHit ∧
      (simulateStatements action resource ctx p index s statements).allowHit = s.allowHit := by
  induction statements generalizing index s with
  | nil => exact ⟨rfl, rfl⟩
  | cons st rest ih =>
    have entry := trailEntry_matched action resource ctx p st
    rw [outside, Bool.not_true, Bool.false_and] at entry
    simp only [simulateStatements, entry, Bool.false_eq_true, if_false]
    exact ih _ { s with trail := _ }

end

theorem simulatePolicies_agrees (s : Simulation) (open_ : s.denyHit = none) (policies : List Policy) :
    (simulatePolicies action resource ctx s policies).Agrees
      (evaluatePolicies action resource ctx (s.allowHit.map SimulationHit.toHit) policies) := by
  induction policies generalizing s with
  | nil => exact ⟨open_, rfl⟩
  | cons p rest ih =>
    simp only [simulatePolicies, evaluatePolicies]
    by_cases outside : p.outsideTenant resource = true
    · obtain ⟨deny, allow⟩ := simulateStatements_outside action resource ctx p outside 0 s p.statements
      simp only [outside, if_true, deny, open_]
      rw [← allow]
      exact ih _ (deny.trans open_)
    · have agrees := simulateStatements_agrees action resource ctx p
        (Bool.eq_false_of_not_eq_true outside) 0 s open_ p.statements
      simp only [outside, Bool.false_eq_true, if_false]
      cases result : evaluateStatements action resource ctx p (s.allowHit.map SimulationHit.toHit)
        p.statements with
      | error decision =>
        rw [result] at agrees
        obtain ⟨hit, denied, rfl⟩ := agrees
        simp only [denied]
        exact ⟨hit, denied, rfl⟩
      | ok found =>
        rw [result] at agrees
        obtain ⟨clear, rfl⟩ := agrees
        simp only [clear]
        exact ih _ clear

theorem decision_simulate (policies : List Policy) :
    (simulate action resource ctx policies).decision = evaluate action resource ctx policies := by
  have agrees := simulatePolicies_agrees action resource ctx ⟨[], none, none⟩ rfl policies
  unfold simulate evaluate
  rw [Option.map_none] at agrees
  cases result : evaluatePolicies action resource ctx none policies with
  | error decision =>
    rw [result] at agrees
    obtain ⟨hit, denied, rfl⟩ := agrees
    simp only [denied]
  | ok found =>
    rw [result] at agrees
    obtain ⟨clear, rfl⟩ := agrees
    simp only [clear]
    cases (simulatePolicies action resource ctx ⟨[], none, none⟩ policies).allowHit <;> rfl

def Policy.Reordered (p q : Policy) : Prop := q.id = p.id ∧ q.tenant = p.tenant ∧ p.statements.Perm q.statements

def Shuffled (policies other : List Policy) : Prop :=
  ∃ middle, policies.Perm middle ∧ List.Forall₂ Policy.Reordered middle other

theorem Policy.Reordered.mem_votes {p q : Policy} (reordered : p.Reordered q) (effect : Effect) :
    effect ∈ p.votes action resource ctx ↔ effect ∈ q.votes action resource ctx := by
  obtain ⟨-, tenant, statements⟩ := reordered
  simp only [Policy.mem_votes, Policy.outsideTenant, tenant, statements.mem_iff]

theorem Shuffled.mem_votes {policies other : List Policy} (shuffled : Shuffled policies other) (effect : Effect) :
    effect ∈ votes action resource ctx policies ↔ effect ∈ votes action resource ctx other := by
  obtain ⟨middle, moved, reordered⟩ := shuffled
  have same : effect ∈ votes action resource ctx policies ↔ effect ∈ votes action resource ctx middle := by
    simp only [mem_votes_iff, moved.mem_iff]
  rw [same]
  clear same moved
  induction reordered with
  | nil => exact Iff.rfl
  | cons first _ ih =>
    simp only [votes, flatMap_cons, mem_append] at ih ⊢
    exact or_congr (first.mem_votes action resource ctx effect) ih

theorem allow_mem_of_deny_only {before after : List Policy} {guard : Policy}
    (denies : ∀ st ∈ guard.statements, st.effect = .deny)
    (allowed : .allow ∈ votes action resource ctx (before ++ guard :: after)) :
    .allow ∈ votes action resource ctx (before ++ after) := by
  obtain ⟨p, member, inside, st, stated, applies, effect⟩ := (mem_votes_iff action resource ctx).mp allowed
  refine (mem_votes_iff action resource ctx).mpr ⟨p, ?_, inside, st, stated, applies, effect⟩
  rcases mem_append.mp member with first | rest
  · exact mem_append_left _ first
  · rcases mem_cons.mp rest with rfl | last
    · rw [denies st stated] at effect
      cases effect
    · exact mem_append_right _ last

theorem denies_denyOverrides {votes : List Effect} :
    (denyOverrides votes).denies = true ↔ .deny ∈ votes ∨ .allow ∉ votes := by
  unfold denyOverrides
  split_ifs with denied allowed <;> simp_all [DecisionKind.denies]

def Voted (policies : List Policy) (effect : Effect) : Prop :=
  ∃ p ∈ policies, p.outsideTenant resource = false ∧
    ∃ st ∈ p.statements, st.applies action resource ctx = true ∧ st.effect = effect

theorem evaluate_deny_overrides (policies : List Policy) :
    ((evaluate action resource ctx policies).kind = .deny ↔ Voted action resource ctx policies .deny) ∧
    ((evaluate action resource ctx policies).kind = .allow ↔
      ¬ Voted action resource ctx policies .deny ∧ Voted action resource ctx policies .allow) ∧
    ((evaluate action resource ctx policies).kind = .defaultDeny ↔
      ¬ Voted action resource ctx policies .deny ∧ ¬ Voted action resource ctx policies .allow) ∧
    (∀ other, Shuffled policies other →
      (evaluate action resource ctx other).kind = (evaluate action resource ctx policies).kind) ∧
    (∀ before after guard, policies = before ++ after → (∀ st ∈ guard.statements, st.effect = .deny) →
      (evaluate action resource ctx policies).kind.denies = true →
        (evaluate action resource ctx (before ++ guard :: after)).kind.denies = true) ∧
    (simulate action resource ctx policies).decision.kind = (evaluate action resource ctx policies).kind := by
  refine ⟨?_, ?_, ?_, ?_, ?_, ?_⟩
  · rw [kind_evaluate, denyOverrides, Voted, ← mem_votes_iff]
    split_ifs <;> simp_all
  · rw [kind_evaluate, denyOverrides, Voted, Voted, ← mem_votes_iff, ← mem_votes_iff]
    split_ifs <;> simp_all
  · rw [kind_evaluate, denyOverrides, Voted, Voted, ← mem_votes_iff, ← mem_votes_iff]
    split_ifs <;> simp_all
  · intro other shuffled
    rw [kind_evaluate, kind_evaluate]
    exact denyOverrides_congr fun effect => (shuffled.mem_votes action resource ctx effect).symm
  · rintro before after guard rfl denies
    rw [kind_evaluate, kind_evaluate, denies_denyOverrides, denies_denyOverrides]
    rintro (denied | refused)
    · obtain ⟨p, member, rest⟩ := (mem_votes_iff action resource ctx).mp denied
      refine .inl ((mem_votes_iff action resource ctx).mpr ⟨p, ?_, rest⟩)
      rcases mem_append.mp member with first | last
      · exact mem_append_left _ first
      · exact mem_append_right _ (mem_cons_of_mem _ last)
    · exact .inr fun allowed => refused (allow_mem_of_deny_only action resource ctx denies allowed)
  · rw [decision_simulate]

end

end RedDB.Auth
