import RedDB.Transaction.Serializable
import RedDB.Transaction.SsiManager

namespace RedDB.Transaction

open Library SnapshotManager Table Finset Option

namespace Ssi

def Txn.unfinished (t : Txn) : Bool :=
  match t.status with
  | .committed _ | .aborted => false
  | _ => true

/-- The manager's entry for `x` records what `t` has read and whether it has committed. -/
def Entry (m : SnapshotManager) (x : Nat) (t : Txn) : Prop :=
  ∃ ssi, m.serializable.get? x = some ssi ∧ ssi.readSet = t.rowReads ∧ ssi.vaultReads = t.vaultReads ∧
    ssi.committed = t.committedAt.isSome

def Edge (m : SnapshotManager) (x y : Nat) : Prop := ∃ ssi, m.serializable.get? x = some ssi ∧ y ∈ ssi.outgoingRw

/-- `t` may still matter to a check: it is unfinished, or it overlaps an unfinished transaction. -/
def World.Needed (w : World) (t : Txn) : Prop :=
  t.unfinished = true ∨ ∃ c ∈ t.committedAt, ∃ y u, w.txns.get? y = some u ∧ u.unfinished = true ∧ u.begun < c

/-- `p` has passed its check on a channel where `i` depends on it, though it depends on `o`, which
    has committed before it. -/
def Unsafe (i p o : Txn) : Prop :=
  i.status ≠ .aborted ∧ (∃ c, dependencyOn i p c ∧ p.Done i.begun c) ∧ (∀ ci ∈ i.committedAt, p.begun < ci) ∧
    dependency p o ∧ ∃ co ∈ o.committedAt, p.begun < co ∧ ∀ cp ∈ p.committedAt, co < cp

structure Inv (w : World) : Prop where
  active : ∀ x t, w.txns.get? x = some t → t.unfinished = true → x ∈ w.manager.active
  entered : ∀ x ∈ w.entered, x ∈ w.manager.active ∧ w.txns.get? x = none ∧ Entry w.manager x (.start 0)
  keys : ∀ x ssi, w.manager.serializable.get? x = some ssi → x ∈ w.entered ∨ ∃ t, w.txns.get? x = some t
  past : ∀ x t, w.txns.get? x = some t → t.begun < w.clock ∧ ∀ c ∈ t.committedAt, c < w.clock
  entry : ∀ x t, w.txns.get? x = some t → w.Needed t → Entry w.manager x t
  edge : ∀ x t y u c, w.txns.get? x = some t → w.txns.get? y = some u → x ≠ y → t.unfinished = true →
    dependencyOn t u c → u.Done t.begun c → Edge w.manager x y
  safe : ∀ x y z i p o, x ≠ y → y ≠ z → w.txns.get? x = some i → w.txns.get? y = some p →
    w.txns.get? z = some o → ¬ Unsafe i p o

theorem Inv.init : Inv .init := by
  constructor <;> simp [World.init, new]

theorem World.get?_put (w : World) (m : SnapshotManager) (x y : Nat) (t : Txn) :
    (w.put m x t).txns.get? y = if y = x then some t else w.txns.get? y :=
  get?_insert _ _ _ _

variable {m : SnapshotManager} {x y : Nat} {t : Txn}

variable {m' : SnapshotManager}

theorem Entry.carry (carries : Carries m m' x)
    (busy : m'.active.Nonempty) (other : y ≠ x) (entry : Entry m y t) : Entry m' y t := by
  obtain ⟨before, found, reads, vault, outcome⟩ := entry
  obtain ⟨after, kept, sameReads, sameVault, sameOutcome, -⟩ := carries.entries busy y before other found
  exact ⟨after, kept, sameReads.trans reads, sameVault.trans vault, sameOutcome.trans outcome⟩

theorem Edge.carry {z : Nat} (carries : Carries m m' x)
    (busy : m'.active.Nonempty) (other : y ≠ x) (target : z ≠ x) (edge : Edge m y z) : Edge m' y z := by
  obtain ⟨before, found, member⟩ := edge
  obtain ⟨after, kept, -, -, -, outgoing⟩ := carries.entries busy y before other found
  exact ⟨after, kept, outgoing z target member⟩

/-- What a step in which `x` becomes `t` has to establish. -/
structure Moves (w : World) (m : SnapshotManager) (x : Nat) (t : Txn) : Prop where
  carries : Carries w.manager m x
  origin : (∃ before, w.txns.get? x = some before ∧ before.begun = t.begun ∧
      (t.unfinished = true → before.unfinished = true)) ∨ t.begun = w.clock
  times : ∀ c ∈ t.committedAt, c ≤ w.clock
  active : t.unfinished = true → x ∈ m.active
  entry : m.active.Nonempty → t.status ≠ .aborted → Entry m x t
  outgoing : ∀ y u c, y ≠ x → w.txns.get? y = some u → t.unfinished = true → dependencyOn t u c →
    u.Done t.begun c → Edge m x y
  incoming : ∀ y u c, y ≠ x → w.txns.get? y = some u → u.unfinished = true → dependencyOn u t c →
    t.Done u.begun c → Edge m y x
  asIn : ∀ y p o, y ≠ x → w.txns.get? y = some p → Unsafe t p o →
    ∃ before, w.txns.get? x = some before ∧ Unsafe before p o
  asOut : ∀ y i p, y ≠ x → w.txns.get? y = some p → Unsafe i p t →
    ∃ before, w.txns.get? x = some before ∧ Unsafe i p before
  asPivot : ∀ y z i o, y ≠ x → z ≠ x → w.txns.get? y = some i → w.txns.get? z = some o → Unsafe i t o →
    ∃ before, w.txns.get? x = some before ∧ Unsafe i before o

variable {w : World}

section

variable (inv : Inv w)
include inv

theorem Inv.begun_le (moves : Moves w m x t) : t.begun ≤ w.clock := by
  rcases moves.origin with ⟨before, found, same, -⟩ | now
  · rw [← same]
    exact (inv.past x before found).1.le
  · exact now.le

theorem Inv.needed_of_put {u : Txn}
    (moves : Moves w m x t) (found : w.txns.get? y = some u) (needed : (w.put m x t).Needed u) :
    w.Needed u := by
  rcases needed with unfinished | ⟨c, committed, z, v, member, unfinished, overlap⟩
  · exact .inl unfinished
  · right
    rw [World.get?_put] at member
    split_ifs at member with same
    · cases member
      rcases moves.origin with ⟨before, old, begun, kept⟩ | now
      · exact ⟨c, committed, x, before, old, kept unfinished, begun ▸ overlap⟩
      · have past := (inv.past y u found).2 c committed
        omega
    · exact ⟨c, committed, z, v, member, unfinished, overlap⟩

theorem Inv.put (moves : Moves w m x t) : Inv (w.put m x t) := by
  have carries := moves.carries
  have active : ∀ y u, (w.put m x t).txns.get? y = some u → u.unfinished = true → y ∈ m.active := by
    intro y u found unfinished
    rw [World.get?_put] at found
    split_ifs at found with same
    · cases found
      rw [same]
      exact moves.active unfinished
    · exact carries.active y same (inv.active y u found unfinished)
  refine ⟨active, fun y member => ?_, fun y ssi found => ?_, fun y u found => ?_, fun y u found needed => ?_,
    fun y u z v c first second different unfinished depends done => ?_,
    fun y z v i p o first second atIn atPivot atOut => ?_⟩
  · obtain ⟨other, member⟩ := mem_erase.mp member
    obtain ⟨running, absent, entry⟩ := inv.entered y member
    have still := carries.active y other running
    refine ⟨still, ?_, entry.carry carries ⟨y, still⟩ other⟩
    rw [World.get?_put, if_neg other]
    exact absent
  · by_cases same : y = x
    · right
      exact ⟨t, by rw [World.get?_put, if_pos same]⟩
    · obtain ⟨before, entry⟩ := carries.back y ssi same found
      rcases inv.keys y before entry with member | ⟨u, found⟩
      · exact .inl (mem_erase.mpr ⟨same, member⟩)
      · right
        exact ⟨u, by rw [World.get?_put, if_neg same]; exact found⟩
  · have clock : (w.put m x t).clock = w.clock + 1 := rfl
    rw [World.get?_put] at found
    split_ifs at found with same
    · cases found
      have begun := inv.begun_le moves
      refine ⟨by omega, fun c committed => ?_⟩
      have time := moves.times c committed
      omega
    · obtain ⟨begun, times⟩ := inv.past y u found
      refine ⟨by omega, fun c committed => ?_⟩
      have time := times c committed
      omega
  · have busy : m.active.Nonempty := by
      rcases needed with unfinished | ⟨_, _, z, v, member, unfinished, _⟩
      · exact ⟨y, active y u found unfinished⟩
      · exact ⟨z, active z v member unfinished⟩
    by_cases same : y = x
    · have here : t = u := by
        rw [World.get?_put, if_pos same] at found
        exact Option.some.inj found
      subst here
      rw [same]
      refine moves.entry busy fun aborted => ?_
      rcases needed with unfinished | ⟨c, committed, _⟩
      · simp [Txn.unfinished, aborted] at unfinished
      · simp [Txn.committedAt, aborted] at committed
    · rw [World.get?_put, if_neg same] at found
      exact (inv.entry y u found (inv.needed_of_put moves found needed)).carry carries busy same
  · have busy : m.active.Nonempty := ⟨y, active y u first unfinished⟩
    rw [World.get?_put] at first second
    split_ifs at first second with here there
    · exact absurd (here.trans there.symm) different
    · cases first
      rw [here]
      exact moves.outgoing z v c there second unfinished depends done
    · rename_i there
      cases second
      rw [there]
      exact moves.incoming y u c here first unfinished depends done
    · rename_i there
      exact (inv.edge y u z v c first second different unfinished depends done).carry carries busy here there
  · intro bad
    rw [World.get?_put] at atIn atPivot atOut
    by_cases pivot : z = x
    · have away : y ≠ x := fun same => first (same.trans pivot.symm)
      have beyond : v ≠ x := fun same => second (pivot.trans same.symm)
      rw [if_neg away] at atIn
      rw [if_pos pivot] at atPivot
      rw [if_neg beyond] at atOut
      cases atPivot
      obtain ⟨before, old, bad⟩ := moves.asPivot y v i o away beyond atIn atOut bad
      exact inv.safe y x v i before o away (fun same => beyond same.symm) atIn old atOut bad
    · rw [if_neg pivot] at atPivot
      have reader : ∃ i', w.txns.get? y = some i' ∧ Unsafe i' p o := by
        split_ifs at atIn with same
        · cases atIn
          rw [same]
          exact moves.asIn z p o pivot atPivot bad
        · exact ⟨i, atIn, bad⟩
      obtain ⟨i', old, bad⟩ := reader
      have writer : ∃ o', w.txns.get? v = some o' ∧ Unsafe i' p o' := by
        split_ifs at atOut with same
        · cases atOut
          rw [same]
          exact moves.asOut z i' p pivot atPivot bad
        · exact ⟨o, atOut, bad⟩
      obtain ⟨o', target, bad⟩ := writer
      exact inv.safe y z v i' p o' first second old atPivot target bad

theorem Inv.tick {entered : Finset Nat} (carries : Carries w.manager m x) (absent : w.txns.get? x = none)
    (others : ∀ y, y ≠ x → (y ∈ entered ↔ y ∈ w.entered))
    (own : x ∈ entered → x ∈ m.active ∧ Entry m x (.start 0))
    (gone : ∀ ssi, m.serializable.get? x = some ssi → x ∈ entered) : Inv { w.tick m with entered } := by
  have other {y : Nat} {u : Txn} (found : w.txns.get? y = some u) : y ≠ x := by
    rintro rfl
    rw [absent] at found
    cases found
  have active : ∀ y u, w.txns.get? y = some u → u.unfinished = true → y ∈ m.active :=
    fun y u found unfinished => carries.active y (other found) (inv.active y u found unfinished)
  have clock : (w.tick m).clock = w.clock + 1 := rfl
  refine ⟨active, fun y member => ?_, fun y ssi found => ?_, fun y u found => ?_, fun y u found needed => ?_,
    fun y u z v c first second different unfinished depends done => ?_, inv.safe⟩
  · by_cases same : y = x
    · subst same
      obtain ⟨still, entry⟩ := own member
      exact ⟨still, absent, entry⟩
    · obtain ⟨running, none, entry⟩ := inv.entered y ((others y same).mp member)
      have still := carries.active y same running
      exact ⟨still, none, entry.carry carries ⟨y, still⟩ same⟩
  · by_cases same : y = x
    · rw [same] at found ⊢
      exact .inl (gone ssi found)
    · obtain ⟨before, entry⟩ := carries.back y ssi same found
      exact (inv.keys y before entry).imp_left (others y same).mpr
  · obtain ⟨begun, times⟩ := inv.past y u found
    change u.begun < w.clock + 1 ∧ ∀ c ∈ u.committedAt, c < w.clock + 1
    refine ⟨by omega, fun c committed => ?_⟩
    have time := times c committed
    omega
  · have busy : m.active.Nonempty := by
      rcases needed with unfinished | ⟨_, _, z, v, member, unfinished, _⟩
      · exact ⟨y, active y u found unfinished⟩
      · exact ⟨z, active z v member unfinished⟩
    exact (inv.entry y u found needed).carry carries busy (other found)
  · have busy : m.active.Nonempty := ⟨y, active y u first unfinished⟩
    exact (inv.edge y u z v c first second different unfinished depends done).carry carries busy
      (other first) (other second)

theorem Inv.begin : Inv (w.tick w.manager.begin.2) := by
  have grown : w.manager.active ⊆ w.manager.begin.2.active := subset_insert _ _
  refine ⟨fun x t found unfinished => grown (inv.active x t found unfinished), fun x member => ?_, inv.keys,
    fun x t found => ?_, inv.entry, inv.edge, inv.safe⟩
  · obtain ⟨running, none, entry⟩ := inv.entered x member
    exact ⟨grown running, none, entry⟩
  · obtain ⟨begun, times⟩ := inv.past x t found
    exact ⟨Nat.lt_succ_of_lt begun, fun c committed => Nat.lt_succ_of_lt (times c committed)⟩

end

section

variable {w : World} {x : Nat} {t : Txn}

variable {i p o : Txn} {u : Txn}

theorem Txn.not_done (status : u.status = .running ∨ u.status = .refused ∨ u.status = .aborted)
    (begun : Nat) (c : Channel) : ¬ u.Done begun c := by
  rcases status with status | status | status <;> simp [Txn.Done, status]

theorem Txn.not_committed (unfinished : u.unfinished = true) : u.committedAt = none := by
  unfold Txn.unfinished at unfinished
  unfold Txn.committedAt
  cases status : u.status <;> simp [status] at unfinished ⊢

theorem Unsafe.pivot_done (bad : Unsafe i p o) : ∃ c, p.Done i.begun c := bad.2.1.imp fun _ both => both.2

theorem Unsafe.out_committed (bad : Unsafe i p o) : o.committedAt ≠ none := by
  obtain ⟨-, -, -, -, co, committed, -⟩ := bad
  intro absent
  rw [absent] at committed
  cases committed

theorem Edge.of_entry {m m' : SnapshotManager} {y : Nat} (kept : ∀ ssi, m.serializable.get? x = some ssi →
      ∃ after, m'.serializable.get? x = some after ∧ ssi.outgoingRw ⊆ after.outgoingRw)
    (edge : Edge m x y) : Edge m' x y := by
  obtain ⟨ssi, found, member⟩ := edge
  obtain ⟨after, entry, outgoing⟩ := kept ssi found
  exact ⟨after, entry, outgoing member⟩

section

variable (inv : Inv w)
include inv

theorem Inv.running_moves {m : SnapshotManager} {t' : Txn} (found : w.txns.get? x = some t)
    (running : t.status = .running) (still : t'.status = .running) (begun : t'.begun = t.begun)
    (active : m.active = w.manager.active)
    (others : ∀ y, y ≠ x → m.serializable.get? y = w.manager.serializable.get? y)
    (entry : Entry w.manager x t → Entry m x t')
    (kept : ∀ ssi, w.manager.serializable.get? x = some ssi →
      ∃ after, m.serializable.get? x = some after ∧ ssi.outgoingRw ⊆ after.outgoingRw)
    (reads : ∀ y u c, y ≠ x → w.txns.get? y = some u → dependencyOn t' u c → u.Done t.begun c →
      dependencyOn t u c) : Moves w m x t' := by
  have unfinished : t.unfinished = true := by simp [Txn.unfinished, running]
  have unfinished' : t'.unfinished = true := by simp [Txn.unfinished, still]
  have uncommitted := Txn.not_committed unfinished
  have uncommitted' := Txn.not_committed unfinished'
  have idle (b : Nat) (c : Channel) : ¬ t'.Done b c := Txn.not_done (.inl still) b c
  refine ⟨carries_of_serializable active others, .inl ⟨t, found, begun.symm, fun _ => unfinished⟩, ?_,
    fun _ => active ▸ inv.active x t found unfinished, fun _ _ => entry (inv.entry x t found (.inl unfinished)),
    fun y u c other member _ depends done => ?_, fun y u c _ _ _ _ done => absurd done (idle _ _),
    fun y p o other member bad => ?_, fun _ _ _ _ _ bad => absurd uncommitted' bad.out_committed,
    fun _ _ i o _ _ _ _ bad => ?_⟩
  · simp [uncommitted']
  · rw [begun] at done
    have before := reads y u c other member depends done
    exact (inv.edge x t y u c found member other.symm unfinished before done).of_entry kept
  · obtain ⟨-, ⟨c, depends, done⟩, -, rest⟩ := bad
    rw [begun] at done
    exact ⟨t, found, by simp [running], ⟨c, reads y p c other member depends done, done⟩,
      by simp [uncommitted], rest⟩
  · obtain ⟨c, done⟩ := bad.pivot_done
    exact absurd done (idle _ _)

theorem Inv.readRow {key : LogicalRowKey} (found : w.txns.get? x = some t)
    (running : t.status = .running) (covered : w.ChecksCoverReads (.readRow x key)) :
    Moves w (w.manager.recordSerializableRead x key) x { t with rowReads := insert key t.rowReads } := by
  refine inv.running_moves found running running rfl rfl ?_ ?_ ?_ ?_
  · intro y other
    exact (get?_modify _ _ _ _).trans (if_neg other)
  · rintro ⟨ssi, entry, reads, vault, outcome⟩
    refine ⟨{ ssi with readSet := insert key ssi.readSet }, ?_, congrArg (insert key) reads, vault, outcome⟩
    simp [recordSerializableRead, get?_modify, entry]
  · intro ssi entry
    refine ⟨{ ssi with readSet := insert key ssi.readSet }, ?_, Finset.Subset.refl _⟩
    simp [recordSerializableRead, get?_modify, entry]
  · intro y u c other member depends done
    cases c with
    | vault => exact depends
    | rows =>
      have unwritten : key ∉ u.rowWrites := fun written =>
        covered t found y (mem_keys.mpr ⟨u, member⟩) other u member written done
      simp only [dependencyOn, disjoint_insert_left, not_and] at depends ⊢
      exact depends unwritten

theorem Inv.readVault {read : VaultRead} (found : w.txns.get? x = some t)
    (running : t.status = .running) (covered : w.ChecksCoverReads (.readVault x read)) :
    Moves w (w.manager.recordSerializableVaultRead x read) x
      { t with vaultReads := insert read t.vaultReads } := by
  refine inv.running_moves found running running rfl rfl ?_ ?_ ?_ ?_
  · intro y other
    exact (get?_modify _ _ _ _).trans (if_neg other)
  · rintro ⟨ssi, entry, reads, vault, outcome⟩
    refine ⟨{ ssi with vaultReads := insert read ssi.vaultReads }, ?_, reads, congrArg (insert read) vault, outcome⟩
    simp [recordSerializableVaultRead, get?_modify, entry]
  · intro ssi entry
    refine ⟨{ ssi with vaultReads := insert read ssi.vaultReads }, ?_, Finset.Subset.refl _⟩
    simp [recordSerializableVaultRead, get?_modify, entry]
  · intro y u c other member depends done
    cases c with
    | rows => exact depends
    | vault =>
      obtain ⟨seen, recorded, hit⟩ := depends
      rcases mem_insert.mp recorded with rfl | recorded
      · exact absurd done (covered t found y (mem_keys.mpr ⟨u, member⟩) other u member hit)
      · exact ⟨seen, recorded, hit⟩

theorem Inv.stage {t' : Txn} (found : w.txns.get? x = some t) (running : t.status = .running)
    (still : t'.status = .running) (begun : t'.begun = t.begun) (rows : t'.rowReads = t.rowReads)
    (vault : t'.vaultReads = t.vaultReads) : Moves w w.manager x t' := by
  apply inv.running_moves found running still begun rfl (fun _ _ => rfl)
  · rintro ⟨ssi, entry, reads, vaultReads, outcome⟩
    refine ⟨ssi, entry, reads.trans rows.symm, vaultReads.trans vault.symm, outcome.trans ?_⟩
    simp [Txn.committedAt, running, still]
  · intro ssi entry
    exact ⟨ssi, entry, Finset.Subset.refl _⟩
  · intro y u c _ _ depends _
    cases c with
    | rows => exact fun disjoint => depends (rows ▸ disjoint)
    | vault =>
      obtain ⟨seen, recorded, hit⟩ := depends
      exact ⟨seen, vault ▸ recorded, hit⟩

theorem Inv.check {status : Status} (c₀ : Channel) {hits : SerializableTxnState → Prop}
    {answer : Bool × SnapshotManager} (checked : Checked w.manager x hits answer)
    (found : w.txns.get? x = some t) (unfinished : t.unfinished = true)
    (unfinished' : ({ t with status } : Txn).unfinished = true)
    (covers : ∀ y u, Entry w.manager y u → dependencyOn u t c₀ →
      ∃ ssi, w.manager.serializable.get? y = some ssi ∧ hits ssi)
    (passed : ∀ begun c, ({ t with status } : Txn).Done begun c →
      t.Done begun c ∨ c = c₀ ∧ answer.1 = false) : Moves w answer.2 x { t with status } := by
  have uncommitted := Txn.not_committed unfinished
  have uncommitted' := Txn.not_committed unfinished'
  have own := inv.entry x t found (.inl unfinished)
  have edges {y z : Nat} (edge : Edge w.manager y z) : Edge answer.2 y z := by
    apply edge.of_entry
    intro ssi entry
    obtain ⟨after, kept, extended⟩ := checked.entries y ssi entry
    exact ⟨after, kept, extended.outgoing⟩
  have unaborted : t.status ≠ .aborted := by
    intro aborted
    simp [Txn.unfinished, aborted] at unfinished
  refine ⟨checked.carries x, .inl ⟨t, found, rfl, fun _ => unfinished⟩, by simp [uncommitted'], fun _ => ?_,
    fun _ _ => ?_, fun y u c other member _ depends done => ?_, fun y u c other member busy depends done => ?_,
    fun y p o other member bad => ?_, fun _ _ _ _ _ bad => absurd uncommitted' bad.out_committed,
    fun y z i o other third first last bad => ?_⟩
  · rw [checked.active]
    exact inv.active x t found unfinished
  · obtain ⟨ssi, entry, reads, vault, outcome⟩ := own
    obtain ⟨after, kept, extended⟩ := checked.entries x ssi entry
    refine ⟨after, kept, extended.readSet.trans reads, extended.vaultReads.trans vault, ?_⟩
    rw [extended.committed, outcome, uncommitted, uncommitted']
  · exact edges (inv.edge x t y u c found member other.symm unfinished depends done)
  · rcases passed u.begun c done with before | ⟨rfl, -⟩
    · exact edges (inv.edge y u x t c member found other busy depends before)
    · obtain ⟨ssi, entry, -⟩ := own
      obtain ⟨reader, recorded, hit⟩ := covers y u (inv.entry y u member (.inl busy)) depends
      exact checked.edges ssi entry y reader recorded other hit
  · obtain ⟨-, depends, -, rest⟩ := bad
    exact ⟨t, found, unaborted, depends, by simp [uncommitted], rest⟩
  · obtain ⟨alive, ⟨c, depends, done⟩, overlap, exit, co, committed, recent, -⟩ := bad
    refine ⟨t, found, ?_⟩
    rcases passed i.begun c done with before | ⟨rfl, quiet⟩
    · exact ⟨alive, ⟨c, depends, before⟩, overlap, exit, co, committed, recent, by simp [uncommitted]⟩
    · -- both neighbours are still recorded, so the check has refused
      have outDone (d : Channel) : o.Done t.begun d := by
        cases status : o.status <;> simp [Txn.committedAt, status] at committed
        simpa [Txn.Done, status, committed] using recent
      have neededIn : w.Needed i := by
        by_cases running : i.unfinished = true
        · exact .inl running
        · cases status : i.status <;> simp [Txn.unfinished, status] at running alive
          rename_i time
          have time' : i.committedAt = some time := by simp [Txn.committedAt, status]
          exact .inr ⟨time, time', x, t, found, unfinished, overlap time time'⟩
      have neededOut : w.Needed o := .inr ⟨co, committed, x, t, found, unfinished, recent⟩
      obtain ⟨reader, recorded, hit⟩ := covers y i (inv.entry y i first neededIn) depends
      obtain ⟨out, target, -, -, outcome⟩ := inv.entry z o last neededOut
      have outEdge : Edge w.manager x z := by
        rcases exit with exit | exit
        · exact inv.edge x t z o .rows found last third.symm unfinished exit (outDone _)
        · exact inv.edge x t z o .vault found last third.symm unfinished exit (outDone _)
      obtain ⟨ssi, entry, outgoing⟩ := outEdge
      have final : out.committed = true := by
        rw [outcome, isSome_iff_exists]
        exact ⟨co, committed⟩
      have refused := checked.detects ssi entry ⟨y, reader, recorded, other, hit⟩ ⟨z, outgoing, out, target, final⟩
      rw [quiet] at refused
      cases refused

theorem Inv.checkRows (found : w.txns.get? x = some t) (running : t.status = .running) :
    Moves w (w.manager.serializableCommitWouldBeDangerous x t.rowWrites).2 x
      { t with status :=
        if (w.manager.serializableCommitWouldBeDangerous x t.rowWrites).1 then .refused else .rowsChecked } := by
  apply inv.check .rows (serializableCommitWouldBeDangerous_checked w.manager x t.rowWrites) found
  · simp [Txn.unfinished, running]
  · cases (w.manager.serializableCommitWouldBeDangerous x t.rowWrites).1 <;> rfl
  · rintro y u ⟨ssi, entry, reads, -⟩ depends
    exact ⟨ssi, entry, reads.symm ▸ depends⟩
  · intro begun c done
    cases answer : (w.manager.serializableCommitWouldBeDangerous x t.rowWrites).1 with
    | false => simpa [Txn.Done, answer, running] using done
    | true => simp [Txn.Done, answer] at done

end

theorem vaultCheck_checked (m : SnapshotManager) (xid : Nat) (t : Txn) : Checked m xid
      (fun ssi => ∃ read ∈ ssi.vaultReads, ∃ write ∈ t.vaultWrites, vaultReadMatches read write = true)
      (World.vaultCheck m xid t) := by
  unfold World.vaultCheck
  split_ifs with empty
  · exact .skip m xid fun _ ssi => by simp [empty]
  · exact serializableVaultCommitWouldBeDangerous_checked m xid t.vaultWrites

theorem Inv.checkVault (inv : Inv w) (found : w.txns.get? x = some t) (passed : t.status = .rowsChecked) :
    Moves w (World.vaultCheck w.manager x t).2 x
      { t with status := if (World.vaultCheck w.manager x t).1 then .refused else .admitted } := by
  apply inv.check .vault (vaultCheck_checked w.manager x t) found
  · simp [Txn.unfinished, passed]
  · cases (World.vaultCheck w.manager x t).1 <;> rfl
  · rintro y u ⟨ssi, entry, -, reads, -⟩ depends
    exact ⟨ssi, entry, reads.symm ▸ depends⟩
  · intro begun c done
    cases answer : (World.vaultCheck w.manager x t).1 with
    | false => cases c <;> simp [Txn.Done, passed]
    | true => simp [Txn.Done, answer] at done

theorem Inv.commit (inv : Inv w) (found : w.txns.get? x = some t) (admitted : t.status = .admitted)
    (covered : w.ChecksCoverReads (.commit x)) :
    Moves w (w.manager.commit x) x { t with status := .committed w.clock } := by
  have unfinished : t.unfinished = true := by simp [Txn.unfinished, admitted]
  have uncommitted := Txn.not_committed unfinished
  have done (begun : Nat) (c : Channel) : t.Done begun c := by simp [Txn.Done, admitted]
  have carries := commit_carries w.manager x
  refine ⟨carries, .inl ⟨t, found, rfl, nofun⟩, fun c committed => ?_, nofun, fun busy _ => ?_, nofun,
    fun y u c other member running depends _ => ?_, fun y p o other member bad => ?_,
    fun y i p other member bad => ?_, fun y z i o other third first last bad => ?_⟩
  · cases committed
    exact le_rfl
  · obtain ⟨ssi, entry, reads, vault, -⟩ := inv.entry x t found (.inl unfinished)
    refine ⟨{ ssi with committed := true }, ?_, reads, vault, rfl⟩
    rw [commit_get? _ _ _ busy, if_pos rfl, entry, map_some]
  · have busy : (w.manager.commit x).active.Nonempty := ⟨y, carries.active y other (inv.active y u member running)⟩
    obtain ⟨ssi, entry, outgoing⟩ := inv.edge y u x t c member found other running depends (done _ _)
    refine ⟨ssi, ?_, outgoing⟩
    rw [commit_get? _ _ _ busy, if_neg other]
    exact entry
  · obtain ⟨-, depends, -, rest⟩ := bad
    exact ⟨t, found, by simp [admitted], depends, by simp [uncommitted], rest⟩
  · -- a pivot that has not committed would be `committing`, one that has is in the past
    exfalso
    obtain ⟨-, ⟨c, -, passed⟩, -, exit, co, committed, recent, order⟩ := bad
    cases committed
    cases status : p.status with
    | running => exact Txn.not_done (.inl status) _ _ passed
    | refused => exact Txn.not_done (.inr (.inl status)) _ _ passed
    | aborted => exact Txn.not_done (.inr (.inr status)) _ _ passed
    | rowsChecked | admitted =>
      exact covered t found y (mem_keys.mpr ⟨p, member⟩) other p member (by simp [Txn.committing, status]) exit
    | committed time =>
      have time' : p.committedAt = some time := by simp [Txn.committedAt, status]
      have past := (inv.past y p member).2 time time'
      have later := order time time'
      omega
  · obtain ⟨alive, ⟨c, depends, -⟩, overlap, exit, co, committed, recent, -⟩ := bad
    exact ⟨t, found, alive, ⟨c, depends, done _ _⟩, overlap, exit, co, committed, recent, by simp [uncommitted]⟩

theorem rollback_moves (found : w.txns.get? x = some t) :
    Moves w (w.manager.rollback x) x { t with status := .aborted } := by
  refine ⟨rollback_carries w.manager x, .inl ⟨t, found, rfl, nofun⟩, nofun, nofun,
    fun _ alive => absurd rfl alive, nofun, fun _ _ _ _ _ _ _ done => done.elim, ?_, ?_, ?_⟩
  · intro _ _ _ _ _ bad
    exact absurd rfl bad.1
  · intro _ _ _ _ _ bad
    exact absurd rfl bad.out_committed
  · intro _ _ _ _ _ _ _ _ bad
    obtain ⟨_, done⟩ := bad.pivot_done
    exact done.elim

theorem not_dependencyOn_start (begun : Nat) (u : Txn) (c : Channel) : ¬ dependencyOn (.start begun) u c := by
  cases c <;> simp [dependencyOn, Txn.start]

theorem Inv.takeSnapshot (inv : Inv w) (member : x ∈ w.entered) :
    Moves w (w.manager.snapshot x).2 x (.start w.clock) := by
  obtain ⟨running, -, entry⟩ := inv.entered x member
  have same := snapshot_serializable w.manager x
  have still := snapshot_active w.manager x
  refine ⟨carries_of_serializable still fun _ _ => by rw [same], .inr rfl, nofun, fun _ => still ▸ running,
    fun _ _ => ?_, ?_, fun _ _ _ _ _ _ _ done => done.elim, ?_, ?_, ?_⟩
  · rw [Entry, same]
    exact entry
  · intro y u c _ _ _ depends
    exact absurd depends (not_dependencyOn_start _ _ _)
  · rintro _ _ _ _ _ ⟨-, ⟨c, depends, -⟩, -⟩
    exact absurd depends (not_dependencyOn_start _ _ _)
  · intro _ _ _ _ _ bad
    exact absurd rfl bad.out_committed
  · intro _ _ _ _ _ _ _ _ bad
    obtain ⟨_, done⟩ := bad.pivot_done
    exact done.elim

theorem Inv.enter (inv : Inv w) (active : x ∈ w.manager.active) (fresh : x ∉ w.entered)
    (absent : w.txns.get? x = none) :
    Inv { w.tick (w.manager.beginSerializable x) with entered := insert x w.entered } := by
  have unknown : w.manager.serializable.get? x = none := by
    by_contra known
    obtain ⟨ssi, entry⟩ := ne_none_iff_exists'.mp known
    rcases inv.keys x ssi entry with member | ⟨t, found⟩
    · exact fresh member
    · rw [absent] at found
      cases found
  apply inv.tick (x := x) _ absent
  · intro y other
    simp [other]
  · intro _
    refine ⟨(beginSerializable_active _ _).symm ▸ active, .default, ?_, rfl, rfl, rfl⟩
    rw [beginSerializable_get?, if_pos rfl, unknown]
    rfl
  · intro _ _
    exact mem_insert_self _ _
  · apply carries_of_serializable (beginSerializable_active _ _)
    intro y other
    rw [beginSerializable_get?, if_neg other]

theorem Inv.commitOther (inv : Inv w) (absent : w.txns.get? x = none) (fresh : x ∉ w.entered) :
    Inv (w.tick (w.manager.commit x)) := by
  refine inv.tick (commit_carries w.manager x) absent (fun _ _ => Iff.rfl) (fun member => absurd member fresh) ?_
  intro ssi found
  have before := pruneSerializableState_back found
  rw [get?_modify, if_pos rfl] at before
  obtain ⟨old, entry, -⟩ := map_eq_some_iff.mp before
  rcases inv.keys x old entry with member | ⟨t, known⟩
  · exact member
  · rw [absent] at known
    cases known

theorem Inv.rollbackOther (inv : Inv w) (absent : w.txns.get? x = none) :
    Inv { w.tick (w.manager.rollback x) with entered := w.entered.erase x } := by
  apply inv.tick (rollback_carries w.manager x) absent
  · intro y other
    simp [other]
  · intro member
    simp at member
  · intro ssi found
    have before := pruneSerializableState_back found
    rw [get?_mapValues, get?_erase, if_pos rfl] at before
    cases before

theorem moved {status : Status} {next : Txn → World} {w' : World}
    (taken : (match w.txns.get? x with
      | some t => if t.status = status then some (next t) else none
      | none => none) = some w') :
    ∃ t, w.txns.get? x = some t ∧ t.status = status ∧ w' = next t := by
  cases found : w.txns.get? x with
  | none => simp [found] at taken
  | some t =>
    rw [found] at taken
    by_cases same : t.status = status
    · simp only [if_pos same] at taken
      exact ⟨t, rfl, same, (Option.some.inj taken).symm⟩
    · simp [same] at taken

theorem Inv.step (inv : Inv w) {e : Event} {w' : World} (covered : w.ChecksCoverReads e)
    (taken : w.step e = some w') : Inv w' := by
  cases e with
  | begin =>
    cases taken
    exact inv.begin
  | enter xid =>
    simp only [World.step] at taken
    split_ifs at taken with ready
    cases taken
    obtain ⟨active, fresh, absent⟩ := ready
    exact inv.enter active fresh (get?_eq_none.mpr absent)
  | takeSnapshot xid =>
    simp only [World.step] at taken
    split_ifs at taken with member
    cases taken
    exact inv.put (inv.takeSnapshot member)
  | readRow xid key =>
    obtain ⟨t, found, running, rfl⟩ := moved taken
    exact inv.put (inv.readRow found running covered)
  | readVault xid read =>
    obtain ⟨t, found, running, rfl⟩ := moved taken
    exact inv.put (inv.readVault found running covered)
  | writeRow xid key | writeVault xid write =>
    obtain ⟨t, found, running, rfl⟩ := moved taken
    exact inv.put (inv.stage found running running rfl rfl rfl)
  | checkRows xid =>
    obtain ⟨t, found, running, rfl⟩ := moved taken
    exact inv.put (inv.checkRows found running)
  | checkVault xid =>
    obtain ⟨t, found, passed, rfl⟩ := moved taken
    exact inv.put (inv.checkVault found passed)
  | commit xid =>
    simp only [World.step] at taken
    cases found : w.txns.get? xid with
    | none =>
      simp only [found] at taken
      split_ifs at taken with fresh
      cases taken
      exact inv.commitOther found fresh
    | some t =>
      simp only [found] at taken
      split_ifs at taken with admitted
      cases taken
      exact inv.put (inv.commit found admitted covered)
  | rollback xid =>
    simp only [World.step] at taken
    cases found : w.txns.get? xid with
    | none =>
      simp only [found] at taken
      cases taken
      exact inv.rollbackOther found
    | some t =>
      simp only [found] at taken
      split at taken <;> cases taken
      exact inv.put (rollback_moves found)

end

theorem Inv.not_dangerous {w : World} (inv : Inv w) (tIn tPivot tOut : Nat) : ¬ w.Dangerous tIn tPivot tOut := by
  rintro ⟨first, second, i, atIn, p, atPivot, o, atOut, ci, endIn, cp, endPivot, co, endOut, depends, exit,
    ⟨overlap, overlapIn⟩, ⟨recent, -⟩, order, -⟩
  have alive : i.status ≠ .aborted := by
    intro aborted
    simp [Txn.committedAt, aborted] at endIn
  have done (c : Channel) : p.Done i.begun c := by
    cases status : p.status <;> simp [Txn.committedAt, status] at endPivot
    simpa [Txn.Done, status, endPivot] using overlap
  apply inv.safe tIn tPivot tOut i p o first second atIn atPivot atOut
  refine ⟨alive, ?_, ?_, exit, co, endOut, recent, ?_⟩
  · rcases depends with depends | depends
    · exact ⟨.rows, depends, done _⟩
    · exact ⟨.vault, depends, done _⟩
  · intro c committed
    rw [endIn] at committed
    cases committed
    exact overlapIn
  · intro c committed
    rw [endPivot] at committed
    cases committed
    exact order

/-- As long as no read comes after the check of a concurrent writer of it, and no transaction is
    committed between the check and the commit of one that depends on it, no dangerous structure
    ever commits. -/
theorem no_dangerous_structure_of_checksCoverReads {es : List Event} {w : World}
    (run : Run (Guarded (Steps World.step) World.ChecksCoverReads) .init es w) (tIn tPivot tOut : Nat) :
    ¬ w.Dangerous tIn tPivot tOut := by
  have inv : Inv w := run.invariant (fun _ _ _ before taken => before.step taken.1 taken.2) Inv.init
  exact inv.not_dangerous tIn tPivot tOut

def earlyReader : List Event :=
  [.begin, .enter 1, .takeSnapshot 1, .begin, .enter 2, .takeSnapshot 2, .readRow 1 ("t", 2),
    .writeRow 2 ("t", 2), .checkRows 2, .checkVault 2, .commit 2, .begin, .enter 3, .takeSnapshot 3,
    .writeRow 1 ("t", 1), .readRow 3 ("t", 1), .checkRows 1, .rollback 1, .checkRows 3, .checkVault 3,
    .commit 3]

theorem no_dangerous_structure_of_checksCoverReads_earlyReader :
    ∃ w, Run (Guarded (Steps World.step) World.ChecksCoverReads) .init earlyReader w ∧
      (∃ o ∈ w.txns.get? 2, o.status = .committed 10) ∧ (∃ i ∈ w.txns.get? 3, i.status = .committed 20) ∧
      ¬ w.Dangerous 3 1 2 := by
  obtain ⟨w, run, final⟩ := execute_reaches World.step World.ChecksCoverReads .init earlyReader
    (fun w => decide ((∃ o ∈ w.txns.get? 2, o.status = .committed 10) ∧
      ∃ i ∈ w.txns.get? 3, i.status = .committed 20)) (by decide)
  obtain ⟨committedOut, committedIn⟩ := of_decide_eq_true final
  exact ⟨w, run, committedOut, committedIn, no_dangerous_structure_of_checksCoverReads run 3 1 2⟩

def lateReader : List Event :=
  [.begin, .enter 1, .takeSnapshot 1, .begin, .enter 2, .takeSnapshot 2, .readRow 1 ("t", 2),
    .writeRow 2 ("t", 2), .checkRows 2, .checkVault 2, .commit 2, .begin, .enter 3, .takeSnapshot 3,
    .writeRow 1 ("t", 1), .checkRows 1, .checkVault 1, .commit 1, .readRow 3 ("t", 1), .checkRows 3,
    .checkVault 3, .commit 3]

theorem dangerous_structure_committed : ∃ w, Run (Steps World.step) .init lateReader w ∧ w.Dangerous 3 1 2 := by
  obtain ⟨w, run, final⟩ := execute_reaches World.step (fun _ _ => True) .init lateReader
    (fun w => decide (w.Dangerous 3 1 2)) (by decide)
  exact ⟨w, run.mono fun _ _ _ taken => taken.2, of_decide_eq_true final⟩

end Ssi

end RedDB.Transaction
