import RedDB.Lease.Store

namespace RedDB.Lease

open List Library LeaseSpace

def SameLease (a b : WriterLease) : Prop := a.holderId = b.holderId ∧ a.term = b.term ∧ a.generation = b.generation

def Succeeds (a b : WriterLease × Nat) : Prop := a.1.generation < b.1.generation ∧ a.1.term ≤ b.1.term

/-- Every written lease has expired, or its holder still has the published one, for at least as long. -/
structure Fenced (s : LeaseSpace) : Prop where
  object : ∀ c v, s.object = some (c, v) → v < s.writes ∧ ∃ last, s.issued.getLast? = some last ∧ SameLease c last.1
  empty : s.object = none → s.issued = [] ∧ s.written = []
  issued : s.issued.Pairwise Succeeds
  identity : ∀ w ∈ s.written, ∃ e ∈ s.issued, SameLease w e.1
  covered : ∀ w ∈ s.written, w.expiresAtMs ≤ s.nowMs ∨
    ∃ c v, s.object = some (c, v) ∧ c.holderId = w.holderId ∧ w.expiresAtMs ≤ c.expiresAtMs
  granted : ∀ g ∈ s.granted, g ∈ s.written
  acquired : ∀ e ∈ s.acquired, e ∈ s.issued
  ordered : s.acquired.Pairwise Succeeds

/-- What call `i` may count on while the others work. -/
structure Rely (i : Nat) (s t : LeaseSpace) : Prop where
  clock : s.nowMs ≤ t.nowMs
  writes : s.writes ≤ t.writes
  content : ∀ c v, t.object = some (c, v) → v < s.writes → s.object = some (c, v)
  issued : ∀ e ∈ s.issued, e ∈ t.issued
  written : ∀ w ∈ s.written, w ∈ t.written
  own : ∀ e ∈ t.acquired, e.2 = i → e ∈ s.acquired

/-- No release deletes the object; a write is made while generations are left, and a holder does not replace
its own published lease by one that expires earlier. -/
def Gentle (_ : Nat) (o : BackendOp) (s : LeaseSpace) : Prop :=
  match o with
  | .uploadConditional lease condition => s.Admits condition → ∀ c v, s.object = some (c, v) →
    c.generation < u64Max ∧ (c.holderId = lease.holderId → c.expiresAtMs ≤ lease.expiresAtMs)
  | .deleteConditional version => ¬s.Admits (.ifVersion version)
  | _ => True

def Untouched (i : Nat) (s : LeaseSpace) : Prop := ∀ e ∈ s.acquired, e.2 ≠ i

theorem Rely.refl (i : Nat) (s : LeaseSpace) : Rely i s s :=
  ⟨le_rfl, le_rfl, fun _ _ found _ => found, fun _ => id, fun _ => id, fun _ member _ => member⟩

theorem Rely.trans (i : Nat) (s t u : LeaseSpace) (first : Rely i s t) (second : Rely i t u) : Rely i s u where
  clock := first.clock.trans second.clock
  writes := first.writes.trans second.writes
  content c v found old := first.content c v (second.content c v found (old.trans_le first.writes)) old
  issued e member := second.issued e (first.issued e member)
  written w member := second.written w (first.written w member)
  own e member mine := first.own e (second.own e member mine) mine

theorem Rely.untouched (i : Nat) (s t : LeaseSpace) (later : Rely i s t) (untouched : Untouched i s) :
    Untouched i t :=
  fun e member mine => untouched e (later.own e member mine) mine

theorem pairwise_related {s : List (WriterLease × Nat)} (ordered : s.Pairwise Succeeds)
    {a b : WriterLease × Nat} (inA : a ∈ s) (inB : b ∈ s) : a = b ∨ Succeeds a b ∨ Succeeds b a := by
  induction ordered with
  | nil => cases inA
  | cons before _ ih =>
    rcases mem_cons.mp inA with rfl | laterA
    · rcases mem_cons.mp inB with rfl | laterB
      · exact .inl rfl
      · exact .inr (.inl (before b laterB))
    · rcases mem_cons.mp inB with rfl | laterB
      · exact .inr (.inr (before a laterA))
      · exact ih laterA laterB

variable {s : LeaseSpace}

theorem Fenced.issued_unique (fenced : Fenced s) {a b : WriterLease × Nat}
    (inA : a ∈ s.issued) (inB : b ∈ s.issued) (same : a.1.generation = b.1.generation) : a = b := by
  rcases pairwise_related fenced.issued inA inB with equal | below | above
  · exact equal
  · exact absurd same below.1.ne
  · exact absurd same above.1.ne'

theorem Fenced.le_last (fenced : Fenced s) {e last : WriterLease × Nat}
    (member : e ∈ s.issued) (isLast : s.issued.getLast? = some last) :
    e = last ∨ Succeeds e last := by
  obtain ⟨init, split⟩ := getLast?_eq_some_iff.mp isLast
  have ordered := fenced.issued
  rw [split] at ordered member
  rcases mem_append.mp member with inInit | inLast
  · exact .inr ((pairwise_append.mp ordered).2.2 e inInit last mem_cons_self)
  · exact .inl (mem_singleton.mp inLast)

theorem fenced_tick (fenced : Fenced s) (ms : Nat) : Fenced { s with nowMs := s.nowMs + ms } where
  object := fenced.object
  empty := fenced.empty
  issued := fenced.issued
  identity := fenced.identity
  covered w member := (fenced.covered w member).imp (fun expired => by simp only; omega) id
  granted := fenced.granted
  acquired := fenced.acquired
  ordered := fenced.ordered

theorem rely_tick (i : Nat) (s : LeaseSpace) (ms : Nat) : Rely i s { s with nowMs := s.nowMs + ms } :=
  ⟨Nat.le_add_right .., le_rfl, fun _ _ found _ => found, fun _ => id, fun _ => id, fun _ member _ => member⟩

theorem rely_write (call : Nat) (lease : WriterLease) (j : Nat) : Rely j s (s.write call lease) where
  clock := le_rfl
  writes := Nat.le_succ _
  content c v found old := by
    simp only [write, Option.some.injEq, Prod.mk.injEq] at found
    omega
  issued e member := by
    unfold write
    dsimp only
    split
    · exact member
    · exact mem_append_left _ member
  written w member := mem_append_left _ member
  own e member _ := member

theorem Fenced.still_covered (fenced : Fenced s) {call : Nat} {lease : WriterLease}
    (yields : ∀ c v, s.object = some (c, v) → c.expiresAtMs ≤ s.nowMs ∨
      c.holderId = lease.holderId ∧ c.expiresAtMs ≤ lease.expiresAtMs) :
    ∀ w ∈ (s.write call lease).written, w.expiresAtMs ≤ s.nowMs ∨ ∃ c v,
      (s.write call lease).object = some (c, v) ∧ c.holderId = w.holderId ∧ w.expiresAtMs ≤ c.expiresAtMs := by
  intro w member
  rcases mem_append.mp member with old | new
  · rcases fenced.covered w old with expired | ⟨c, v, found, holder, within⟩
    · exact .inl expired
    · rcases yields c v found with lapsed | ⟨own, lasts⟩
      · exact .inl (within.trans lapsed)
      · exact .inr ⟨lease, s.writes, rfl, own.symm.trans holder, within.trans lasts⟩
  · obtain rfl := mem_singleton.mp new
    exact .inr ⟨w, s.writes, rfl, rfl, le_rfl⟩

theorem Fenced.issue (fenced : Fenced s) (call : Nat) (lease : WriterLease)
    (newer : ∀ c v, s.object = some (c, v) → c.generation < lease.generation ∧ c.term ≤ lease.term)
    (yields : ∀ c v, s.object = some (c, v) → c.expiresAtMs ≤ s.nowMs ∨
      c.holderId = lease.holderId ∧ c.expiresAtMs ≤ lease.expiresAtMs) :
    Fenced (s.write call lease) ∧ (lease, call) ∈ (s.write call lease).issued := by
  have appended : (s.write call lease).issued = s.issued ++ [(lease, call)] := by
    unfold write
    refine if_neg ?_
    cases object : s.object with
    | none => simp
    | some current =>
      have below := (newer current.1 current.2 object).1
      simp only [Option.map_some, Option.some.injEq]
      omega
  have before : ∀ e ∈ s.issued, Succeeds e (lease, call) := by
    intro e member
    cases object : s.object with
    | none => simp [(fenced.empty object).1] at member
    | some current =>
      obtain ⟨-, last, isLast, -, term, generation⟩ := fenced.object current.1 current.2 object
      obtain ⟨larger, termLe⟩ := newer current.1 current.2 object
      rcases fenced.le_last member isLast with rfl | ⟨below, termBelow⟩
      · exact ⟨by dsimp only; omega, by dsimp only; omega⟩
      · exact ⟨by dsimp only; omega, by dsimp only; omega⟩
  refine ⟨⟨?_, nofun, ?_, ?_, fenced.still_covered yields, ?_, ?_, fenced.ordered⟩, ?_⟩
  · intro c v found
    cases found
    rw [appended]
    exact ⟨Nat.lt_succ_self _, (lease, call), by simp, rfl, rfl, rfl⟩
  · rw [appended]
    exact pairwise_append.mpr ⟨fenced.issued, pairwise_singleton .., fun e member b single => by
      obtain rfl := mem_singleton.mp single
      exact before e member⟩
  · intro w member
    rw [appended]
    rcases mem_append.mp member with old | new
    · obtain ⟨e, inIssued, same⟩ := fenced.identity w old
      exact ⟨e, mem_append_left _ inIssued, same⟩
    · obtain rfl := mem_singleton.mp new
      exact ⟨(w, call), by simp, rfl, rfl, rfl⟩
  · intro g member
    exact mem_append_left _ (fenced.granted g member)
  · intro e member
    rw [appended]
    exact mem_append_left _ (fenced.acquired e member)
  · rw [appended]
    simp

theorem Fenced.renew (fenced : Fenced s) {call : Nat} {lease c : WriterLease} {v : Nat}
    (published : s.object = some (c, v)) (same : SameLease lease c)
    (lasts : c.expiresAtMs ≤ lease.expiresAtMs) : Fenced (s.write call lease) := by
  have kept : (s.write call lease).issued = s.issued := by
    unfold write
    refine if_pos ?_
    simp [published, same.2.2]
  obtain ⟨-, last, isLast, holder, term, generation⟩ := fenced.object c v published
  obtain ⟨sameHolder, sameTerm, sameGeneration⟩ := same
  have sameLast : SameLease lease last.1 :=
    ⟨sameHolder.trans holder, sameTerm.trans term, sameGeneration.trans generation⟩
  have yields : ∀ c v, s.object = some (c, v) → c.expiresAtMs ≤ s.nowMs ∨
      c.holderId = lease.holderId ∧ c.expiresAtMs ≤ lease.expiresAtMs := by
    intro c' v' found
    rw [published] at found
    cases found
    exact .inr ⟨sameHolder.symm, lasts⟩
  refine ⟨?_, nofun, ?_, ?_, fenced.still_covered yields, ?_, ?_, fenced.ordered⟩
  · intro c' v' found
    cases found
    rw [kept]
    exact ⟨Nat.lt_succ_self _, last, isLast, sameLast⟩
  · rw [kept]
    exact fenced.issued
  · intro w member
    rw [kept]
    rcases mem_append.mp member with old | new
    · exact fenced.identity w old
    · obtain rfl := mem_singleton.mp new
      exact ⟨last, mem_of_getLast? isLast, sameLast⟩
  · intro g member
    exact mem_append_left _ (fenced.granted g member)
  · intro e member
    rw [kept]
    exact fenced.acquired e member

end RedDB.Lease
