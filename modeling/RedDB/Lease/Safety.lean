import RedDB.Lease.CallSpec

namespace RedDB.Lease

open Library Resource Rely

def Calm (pool : LeasePool) : LeaseEvent → Prop
  | .resume call =>
    match pool.threads[call]? with
    | some (.call o _) => Gentle call o pool.shared
    | _ => True
  | _ => True

abbrev SafePool : LeasePool → Prop := PoolSafe leases Fenced Rely Gentle Untouched

theorem safePool_initial (nowMs : Nat) : SafePool ⟨.initial nowMs, []⟩ where
  invariant := ⟨nofun, fun _ => ⟨rfl, rfl⟩, .nil, nofun, nofun, nofun, nofun, .nil⟩
  running := nofun
  unstarted := nofun

theorem safePool_step {databaseKey : String} {pool after : LeasePool} {event : LeaseEvent} (safe : SafePool pool)
    (calm : Calm pool event) (taken : step databaseKey pool event = some after) : SafePool after := by
  cases event with
  | tick ms =>
    cases taken
    exact safe.environment Rely.trans untouched (fenced_tick safe.invariant ms) fun i => rely_tick i pool.shared ms
  | start request =>
    simp only [step] at taken
    split at taken
    · rename_i known
      cases taken
      exact safe.spawn Rely.refl Rely.trans untouched
        (callSpec_program safe.invariant (safe.unstarted _ le_rfl) known)
    · cases taken
  | resume call =>
    refine safe.resume Rely.refl Rely.trans untouched ?_ taken
    intro o next found
    simpa only [Calm, found] using calm

theorem leases_fenced (databaseKey : String) (nowMs : Nat) (events : List LeaseEvent) (pool : LeasePool)
    (run : Run (Guarded (Steps (step databaseKey)) Calm) ⟨.initial nowMs, []⟩ events pool) :
    (pool.shared.acquired.Pairwise fun earlier later =>
      earlier.1.generation < later.1.generation ∧ earlier.1.term ≤ later.1.term) ∧
    ∀ a ∈ pool.shared.granted, ∀ b ∈ pool.shared.granted,
      a.isExpired pool.shared.nowMs = false → b.isExpired pool.shared.nowMs = false → a.holderId = b.holderId := by
  have safe : SafePool pool := run.invariant
    (fun _ _ _ kept ⟨calm, taken⟩ => safePool_step kept calm taken) (safePool_initial nowMs)
  have fenced := safe.invariant
  refine ⟨fenced.ordered, ?_⟩
  intro a grantedA b grantedB liveA liveB
  simp only [WriterLease.isExpired, decide_eq_false_iff_not] at liveA liveB
  obtain ⟨c, v, published, holderA, -⟩ := (fenced.covered a (fenced.granted a grantedA)).resolve_left liveA
  obtain ⟨c', v', publishedAgain, holderB, -⟩ := (fenced.covered b (fenced.granted b grantedB)).resolve_left liveB
  rw [published] at publishedAgain
  cases publishedAgain
  exact holderA.symm.trans holderB

instance (call : Nat) (o : BackendOp) (s : LeaseSpace) : Decidable (Gentle call o s) :=
  match o with
  | .uploadConditional lease condition =>
    decidable_of_iff (s.Admits condition → ∀ e ∈ s.object,
      e.1.generation < u64Max ∧ (e.1.holderId = lease.holderId → e.1.expiresAtMs ≤ lease.expiresAtMs))
      ⟨fun holds admitted c v found => holds admitted (c, v) found,
        fun holds admitted e found => holds admitted e.1 e.2 found⟩
  | .deleteConditional version => inferInstanceAs (Decidable (¬s.Admits (.ifVersion version)))
  | .now | .objectVersion | .download => inferInstanceAs (Decidable True)

instance (pool : LeasePool) (event : LeaseEvent) : Decidable (Calm pool event) :=
  match event with
  | .resume call =>
    match h : pool.threads[call]? with
    | some (.call o _) => decidable_of_iff (Gentle call o pool.shared) (by simp [Calm, h])
    | some (.ret _) => isTrue (by simp [Calm, h])
    | none => isTrue (by simp [Calm, h])
  | .tick _ | .start _ => isTrue trivial

def operations (call count : Nat) : List LeaseEvent := List.replicate count (.resume call)

def leaseOfA (term expiresAtMs : Nat) : WriterLease := ⟨"db", "a", term, 1, 0, expiresAtMs⟩

def turns : List LeaseEvent :=
  ([.start (.tryAcquireForTerm "a" 10 2)] : List LeaseEvent) ++ operations 0 4 ++
    ([.start (.refresh (leaseOfA 2 10) 20)] : List LeaseEvent) ++ operations 1 5 ++
    ([.tick 20, .start (.tryAcquireForTerm "b" 10 3)] : List LeaseEvent) ++ operations 2 6

theorem leases_fenced_turns : ∃ pool, Run (Guarded (Steps (step "db")) Calm) ⟨.initial 0, []⟩ turns pool ∧
    pool.shared.acquired.map (·.1.generation) = [1, 2] ∧
    ∀ a ∈ pool.shared.granted, ∀ b ∈ pool.shared.granted,
      a.isExpired pool.shared.nowMs = false → b.isExpired pool.shared.nowMs = false → a.holderId = b.holderId := by
  obtain ⟨pool, run, generations⟩ := execute_reaches (step "db") Calm ⟨.initial 0, []⟩ turns
    (fun pool => pool.shared.acquired.map (·.1.generation) == [1, 2]) (by decide +kernel)
  exact ⟨pool, run, beq_iff_eq.mp generations, (leases_fenced "db" 0 turns pool run).2⟩

def afterRelease : List LeaseEvent :=
  ([.start (.tryAcquireForTerm "a" 1000 5)] : List LeaseEvent) ++ operations 0 4 ++
    ([.start (.release (leaseOfA 5 1000))] : List LeaseEvent) ++ operations 1 4 ++
    ([.start (.tryAcquireForTerm "b" 1000 2)] : List LeaseEvent) ++ operations 2 4

def afterShortRefresh : List LeaseEvent :=
  ([.start (.tryAcquireForTerm "a" 1000 1)] : List LeaseEvent) ++ operations 0 4 ++
    ([.start (.refresh (leaseOfA 1 1000) 1)] : List LeaseEvent) ++ operations 1 5 ++
    ([.tick 5, .start (.tryAcquireForTerm "b" 1000 1)] : List LeaseEvent) ++ operations 2 6

/-- After a release the generation starts again at one under a smaller term; and a lease refreshed for a shorter
time is taken by another holder while the first one returned is unexpired. -/
theorem released_generation_again :
    (∃ pool, Run (Guarded (Steps (step "db")) fun _ _ => True) ⟨.initial 0, []⟩ afterRelease pool ∧
      pool.shared.acquired.map (fun e => (e.1.holderId, e.1.generation, e.1.term)) = [("a", 1, 5), ("b", 1, 2)]) ∧
    (∃ pool, Run (Guarded (Steps (step "db")) fun _ _ => True) ⟨.initial 0, []⟩ afterShortRefresh pool ∧
      (pool.shared.granted.filter fun lease => !lease.isExpired pool.shared.nowMs).map (·.holderId) =
        ["a", "b"]) := by
  constructor
  · obtain ⟨pool, run, reached⟩ := execute_reaches (step "db") (fun _ _ => True) ⟨.initial 0, []⟩ afterRelease
      (fun pool => pool.shared.acquired.map (fun e => (e.1.holderId, e.1.generation, e.1.term)) ==
        [("a", 1, 5), ("b", 1, 2)]) (by decide +kernel)
    exact ⟨pool, run, beq_iff_eq.mp reached⟩
  · obtain ⟨pool, run, reached⟩ := execute_reaches (step "db") (fun _ _ => True) ⟨.initial 0, []⟩ afterShortRefresh
      (fun pool => (pool.shared.granted.filter fun lease => !lease.isExpired pool.shared.nowMs).map (·.holderId) ==
        ["a", "b"]) (by decide +kernel)
    exact ⟨pool, run, beq_iff_eq.mp reached⟩

end RedDB.Lease
