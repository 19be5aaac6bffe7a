import RedDB.Lease.Fencing

namespace RedDB.Lease

open List Library Resource Option

/-- The program of call `i`, started in `s`, keeps the leases fenced and returns into `post`. -/
abbrev CallSpec {α : Type} (i : Nat) (post : α → LeaseSpace → Prop) (p : LeaseCall α) (s : LeaseSpace) : Prop :=
  leases.Spec Fenced Rely Gentle i post p s

variable {α : Type} {i : Nat} {s : LeaseSpace}

theorem callSpec_now {post : Nat → LeaseSpace → Prop}
    (holds : ∀ t, Rely i s t → Fenced t → post t.nowMs t) : CallSpec i post nowUnixMillis s :=
  fun t later fenced _ => ⟨fenced, fun j _ => Rely.refl j t, holds t later fenced⟩

theorem callSpec_objectVersion {post : Option Nat → LeaseSpace → Prop}
    (holds : ∀ t, Rely i s t → Fenced t → post (t.object.map (·.2)) t) : CallSpec i post objectVersion s :=
  fun t later fenced _ => ⟨fenced, fun j _ => Rely.refl j t, holds t later fenced⟩

theorem callSpec_download {post : Option WriterLease → LeaseSpace → Prop}
    (holds : ∀ t, Rely i s t → Fenced t → post (t.object.map (·.1)) t) : CallSpec i post download s :=
  fun t later fenced _ => ⟨fenced, fun j _ => Rely.refl j t, holds t later fenced⟩

variable {lease : WriterLease}

section

variable {post : Bool → LeaseSpace → Prop}

theorem callSpec_publish {condition : ConditionalPut}
    (written : ∀ t, Rely i s t → Fenced t → Gentle i (.uploadConditional lease condition) t →
      t.Admits condition → Fenced (t.write i lease) ∧ post true (t.write i lease))
    (refused : ∀ t, Rely i s t → Fenced t → post false t) :
    CallSpec i post (publishConditional lease condition) s := by
  intro t later fenced gentle
  have effect : leases.perform i (.uploadConditional lease condition) t =
      if t.Admits condition then (true, t.write i lease) else (false, t) := rfl
  rw [effect]
  by_cases admitted : t.Admits condition
  · rw [if_pos admitted]
    obtain ⟨kept, returned⟩ := written t later fenced gentle admitted
    exact ⟨kept, fun j _ => rely_write i lease j, returned⟩
  · rw [if_neg admitted]
    exact ⟨fenced, fun j _ => Rely.refl j t, refused t later fenced⟩

theorem callSpec_delete {version : Nat} (refused : ∀ t, Rely i s t → Fenced t → post false t) :
    CallSpec i post (deleteConditional version) s := by
  intro t later fenced gentle
  have effect : leases.perform i (.deleteConditional version) t =
      if t.Admits (.ifVersion version) then (true, { t with object := none }) else (false, t) := rfl
  rw [effect, if_neg gentle]
  exact ⟨fenced, fun j _ => Rely.refl j t, refused t later fenced⟩

end

/-- Version `v` of the object is the lease `c`, now and later. -/
def Seen (c : WriterLease) (v : Nat) (s : LeaseSpace) : Prop := v < s.writes ∧ ∀ c', s.object = some (c', v) → c' = c

variable {c : WriterLease} {v : Nat}

theorem Seen.later {t : LeaseSpace} (seen : Seen c v s) (later : Rely i s t) :
    Seen c v t :=
  ⟨seen.1.trans_le later.writes, fun c' found => seen.2 c' (later.content c' v found seen.1)⟩

/-- What `current_versioned` knows of what it returns. -/
def Observed (current : Except LeaseError (Option (WriterLease × Nat))) (s : LeaseSpace) : Prop :=
  ∀ c v, current = .ok (some (c, v)) → Seen c v s

theorem callSpec_currentVersioned {post : Except LeaseError (Option (WriterLease × Nat)) → LeaseSpace → Prop}
    (holds : ∀ current t, Rely i s t → Fenced t → Observed current t → post current t) :
    CallSpec i post currentVersioned s := by
  unfold currentVersioned
  refine (spec_bind ..).mpr (callSpec_objectVersion fun t later fenced => ?_)
  cases first : t.object with
  | none => exact holds _ t later fenced nofun
  | some before =>
    refine (spec_bind ..).mpr (callSpec_download fun u laterU fencedU => ?_)
    have laterSU := later.trans _ _ _ _ laterU
    cases second : u.object with
    | none => exact holds _ u laterSU fencedU nofun
    | some middle =>
      refine (spec_bind ..).mpr (callSpec_objectVersion fun w laterW fencedW => ?_)
      have laterSW := laterSU.trans _ _ _ _ laterW
      dsimp only
      split
      · rename_i same
        refine holds _ w laterSW fencedW ?_
        intro c v current
        cases current
        obtain ⟨after, found, sameVersion⟩ := map_eq_some_iff.mp same
        have old : before.2 < u.writes := ((fenced.object _ _ first).1).trans_le laterU.writes
        refine ⟨old.trans_le laterW.writes, fun c' foundAgain => ?_⟩
        have unchanged := laterW.content c' before.2 foundAgain old
        rw [second] at unchanged
        cases unchanged
        rfl
      · exact holds _ w laterSW fencedW nofun

abbrev Returns (i : Nat) (result : Outcome) (s : LeaseSpace) : Prop := leases.Completes Fenced Rely i result s

theorem returns_failed (fenced : Fenced s) (error : LeaseError) : Returns i (.failed error) s :=
  ⟨fenced, fun j _ => Rely.refl j s⟩

theorem returns_refreshed (fenced : Fenced s) (written : lease ∈ s.written) : Returns i (.refreshed lease) s := by
  refine ⟨?_, fun j _ => ⟨le_rfl, le_rfl, fun _ _ found _ => found, fun _ => id, fun _ => id,
    fun _ member _ => member⟩⟩
  refine { fenced with granted := ?_ }
  intro g member
  rcases mem_append.mp member with old | new
  · exact fenced.granted g old
  · rwa [mem_singleton.mp new]

theorem returns_acquired (fenced : Fenced s) {observed : WriterLease}
    (issued : (lease, i) ∈ s.issued) (written : lease ∈ s.written) (untouched : Untouched i s)
    (published : s.object = some (observed, v)) (own : observed.generation = lease.generation) :
    Returns i (.acquired lease) s := by
  obtain ⟨-, last, isLast, -, -, generation⟩ := fenced.object observed v published
  have isOwn : (lease, i) = last := fenced.issued_unique issued (mem_of_getLast? isLast) (own.symm.trans generation)
  have before : ∀ e ∈ s.acquired, Succeeds e (lease, i) := by
    intro e member
    rcases fenced.le_last (fenced.acquired e member) isLast with same | earlier
    · have mine : e.2 = i := by rw [same, ← isOwn]
      exact absurd mine (untouched e member)
    · rwa [isOwn]
  refine ⟨?_, fun j other => ⟨le_rfl, le_rfl, fun _ _ found _ => found, fun _ => id, fun _ => id, ?_⟩⟩
  · refine { fenced with granted := ?_, acquired := ?_, ordered := ?_ }
    · intro g member
      rcases mem_append.mp member with old | new
      · exact fenced.granted g old
      · rwa [mem_singleton.mp new]
    · intro e member
      rcases mem_append.mp member with old | new
      · exact fenced.acquired e old
      · rwa [mem_singleton.mp new]
    · refine pairwise_append.mpr ⟨fenced.ordered, pairwise_singleton .., ?_⟩
      intro e member b single
      rw [mem_singleton.mp single]
      exact before e member
  · intro e member mine
    rcases mem_append.mp member with old | new
    · exact old
    · rw [mem_singleton.mp new] at mine
      exact absurd mine.symm other

theorem callSpec_outcome {onOk : α → Outcome} {p : LeaseCall (Except LeaseError α)}
    (holds : CallSpec i (fun result t => Returns i (outcome onOk result) t) p s) :
    CallSpec i (Returns i) (outcome onOk <$> p) s :=
  (spec_bind ..).mpr holds

variable {holderId : String} {nowMs term : Nat}

theorem nextGeneration_ok {generation : Nat}
    (next : nextGeneration holderId term nowMs (some (c, v)) = .ok generation) :
    generation = saturatingAdd c.generation 1 ∧ c.term ≤ term ∧ (c.expiresAtMs ≤ nowMs ∨ c.holderId = holderId) := by
  unfold nextGeneration at next
  dsimp only at next
  split at next
  · cases next
  · rename_i current
    split at next
    · cases next
    · rename_i free
      cases next
      refine ⟨rfl, Nat.not_lt.mp current, ?_⟩
      by_cases expired : c.isExpired nowMs = true
      · exact .inl (by simpa [WriterLease.isExpired] using expired)
      · refine .inr ?_
        by_contra other
        exact free ⟨by simpa using expired, other⟩

variable {databaseKey : String}

theorem callSpec_raceError : CallSpec i (fun result t => Returns i (outcome .acquired result) t)
      (acquireRaceError databaseKey holderId nowMs) s := by
  unfold acquireRaceError
  refine (spec_bind ..).mpr (callSpec_download fun t later fenced => ?_)
  split
  · split
    · exact returns_failed fenced _
    · exact returns_failed fenced _
  · exact returns_failed fenced _

theorem callSpec_claim {generation : Nat} {expiresAtMs : Nat}
    {current : Option (WriterLease × Nat)} (untouched : Untouched i s) (past : nowMs ≤ s.nowMs)
    (observed : ∀ c v, current = some (c, v) → Seen c v s)
    (next : nextGeneration holderId term nowMs current = .ok generation) :
    CallSpec i (fun result t => Returns i (outcome .acquired result) t)
      (claim databaseKey holderId nowMs ⟨databaseKey, holderId, term, generation, nowMs, expiresAtMs⟩
        (putCondition current)) s := by
  unfold claim
  refine (spec_bind ..).mpr (callSpec_publish ?_ fun t later fenced => callSpec_raceError)
  intro t later fenced gentle admitted
  have replaced : ∀ c v, t.object = some (c, v) → generation = saturatingAdd c.generation 1 ∧ c.term ≤ term ∧
      (c.expiresAtMs ≤ nowMs ∨ c.holderId = holderId) := by
    intro c v found
    cases read : current with
    | none =>
      rw [read] at admitted
      exact absurd (admitted.symm.trans found) nofun
    | some lease =>
      rw [read] at admitted next
      have version : some v = some lease.2 := by
        have matched : t.object.map (·.2) = some lease.2 := admitted
        rw [found] at matched
        exact matched
      cases version
      have same := ((observed lease.1 lease.2 read).later later).2 c found
      subst same
      exact nextGeneration_ok next
  have newer : ∀ c v, t.object = some (c, v) → c.generation < generation ∧ c.term ≤ term := by
    intro c v found
    obtain ⟨following, termLe, -⟩ := replaced c v found
    have left := (gentle admitted c v found).1
    simp only [saturatingAdd] at following
    exact ⟨by omega, termLe⟩
  have yields : ∀ c v, t.object = some (c, v) → c.expiresAtMs ≤ t.nowMs ∨
      c.holderId = holderId ∧ c.expiresAtMs ≤ expiresAtMs := by
    intro c v found
    obtain ⟨-, -, expired | own⟩ := replaced c v found
    · exact .inl (expired.trans (past.trans later.clock))
    · exact .inr ⟨own, (gentle admitted c v found).2 own⟩
  obtain ⟨kept, issued⟩ := fenced.issue i ⟨databaseKey, holderId, term, generation, nowMs, expiresAtMs⟩ newer yields
  refine ⟨kept, (spec_bind ..).mpr (callSpec_download fun u laterU fencedU => ?_)⟩
  have untouchedT : Untouched i t := Rely.untouched _ _ _ later untouched
  have untouchedU : Untouched i u := Rely.untouched _ _ _ laterU untouchedT
  have issuedU := laterU.issued _ issued
  have writtenU := laterU.written _ (mem_append_right t.written mem_cons_self)
  cases published : u.object with
  | none => exact returns_failed fencedU _
  | some object =>
    dsimp only [map_some]
    split
    · rename_i own
      exact returns_acquired fencedU issuedU writtenU untouchedU published own.2
    · exact returns_failed fencedU _

theorem callSpec_tryAcquireForTerm {ttlMs : Nat} (untouched : Untouched i s) :
    CallSpec i (fun result t => Returns i (outcome .acquired result) t)
      (tryAcquireForTerm databaseKey holderId ttlMs term) s := by
  unfold tryAcquireForTerm
  refine (spec_bind ..).mpr (callSpec_now fun t later _ => ?_)
  refine (spec_bind ..).mpr (callSpec_currentVersioned fun current u laterU fencedU observed => ?_)
  have untouchedU : Untouched i u := Rely.untouched _ _ _ laterU (Rely.untouched _ _ _ later untouched)
  cases current with
  | error error => exact returns_failed fencedU error
  | ok current =>
    dsimp only
    cases next : nextGeneration holderId term t.nowMs current with
    | error error => exact returns_failed fencedU error
    | ok generation =>
      exact callSpec_claim untouchedU laterU.clock (fun c v read => observed c v (congrArg _ read)) next

theorem Fenced.same_of_generation (fenced : Fenced s) (written : lease ∈ s.written)
    (published : s.object = some (c, v)) (generation : c.generation = lease.generation) : SameLease lease c := by
  obtain ⟨-, last, isLast, holder, term, lastGeneration⟩ := fenced.object c v published
  obtain ⟨e, issued, sameHolder, sameTerm, sameGeneration⟩ := fenced.identity lease written
  have isLastE : e = last := fenced.issued_unique issued (mem_of_getLast? isLast)
    (sameGeneration.symm.trans (generation.symm.trans lastGeneration))
  subst isLastE
  exact ⟨sameHolder.trans holder.symm, sameTerm.trans term.symm, sameGeneration.trans lastGeneration.symm⟩

theorem callSpec_refresh {ttlMs : Nat} (written : lease ∈ s.written) :
    CallSpec i (fun result t => Returns i (outcome .refreshed result) t) (refresh lease ttlMs) s := by
  unfold refresh
  refine (spec_bind ..).mpr (callSpec_now fun t later _ => ?_)
  refine (spec_bind ..).mpr (callSpec_currentVersioned fun current u laterU fencedU observed => ?_)
  have writtenU := laterU.written _ (later.written _ written)
  match current with
  | .error error => exact returns_failed fencedU error
  | .ok none => exact returns_failed fencedU _
  | .ok (some (c, v)) =>
    dsimp only
    split
    · rename_i matched
      simp only [matchesPublished, Bool.and_eq_true, decide_eq_true_eq] at matched
      obtain ⟨holder, generation⟩ := matched
      refine (spec_bind ..).mpr (callSpec_publish ?_ ?_)
      · intro w laterW fencedW gentle admitted
        obtain ⟨c', found, rfl⟩ : ∃ c', w.object = some (c', v) ∧ c' = c := by
          obtain ⟨object, found, version⟩ := map_eq_some_iff.mp admitted
          refine ⟨object.1, by rw [found, ← version], ?_⟩
          exact ((observed c v rfl).later laterW).2 object.1 (by rw [found, ← version])
        have same := fencedW.same_of_generation (laterW.written _ writtenU) found generation
        have lasts := (gentle admitted _ _ found).2 holder
        have kept : Fenced (w.write i { lease with expiresAtMs := saturatingAdd t.nowMs ttlMs }) :=
          fencedW.renew found same lasts
        exact ⟨kept, returns_refreshed kept (mem_append_right _ mem_cons_self)⟩
      · intro w laterW fencedW
        exact (spec_bind ..).mpr (callSpec_download fun x laterX fencedX => returns_failed fencedX _)
    · exact returns_failed fencedU _

theorem callSpec_release :
    CallSpec i (fun result t => Returns i (outcome (fun _ => .released) result) t) (release lease) s := by
  unfold release
  refine (spec_bind ..).mpr (callSpec_currentVersioned fun current u laterU fencedU observed => ?_)
  match current with
  | .error error => exact returns_failed fencedU error
  | .ok none => exact returns_failed fencedU _
  | .ok (some (c, v)) =>
    dsimp only
    split
    · refine (spec_bind ..).mpr (callSpec_delete fun w laterW fencedW => ?_)
      exact (spec_bind ..).mpr (callSpec_download fun x laterX fencedX => returns_failed fencedX _)
    · exact returns_failed fencedU _

theorem callSpec_program {request : Request} (fenced : Fenced s)
    (untouched : Untouched i s) (known : request.Known s) :
    CallSpec i (Returns i) (program databaseKey request) s := by
  cases request with
  | tryAcquire holderId ttlMs => exact callSpec_outcome (callSpec_tryAcquireForTerm untouched)
  | tryAcquireForTerm holderId ttlMs term => exact callSpec_outcome (callSpec_tryAcquireForTerm untouched)
  | refresh lease ttlMs => exact callSpec_outcome (callSpec_refresh (fenced.granted _ known))
  | refreshForTerm lease ttlMs currentTerm =>
    refine callSpec_outcome ?_
    unfold refreshForTerm
    split
    · exact returns_failed fenced _
    · exact callSpec_refresh (fenced.granted _ known)
  | release lease => exact callSpec_outcome callSpec_release

end RedDB.Lease
