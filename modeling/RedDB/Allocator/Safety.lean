import RedDB.Allocator.Conservation

namespace RedDB.Allocator

open Library Pager List

inductive Call
  | allocate (journaled : Bool)
  | reserve (nPages : Nat)
  | free (stored : Nat → PageImage) (pageId : Nat)
  | enableDeferred
  | retire (stored : Nat → PageImage) (pageIds : List Nat)
  | publish (stored : Nat → PageImage) (retained released : List Nat)
  | flush
  | write (pageId : Nat) (image : PageImage)

structure System where
  pager : Pager
  live : List Nat

namespace System

def create : System := ⟨.create, []⟩

/-- The clients hold `update answer` after a call that succeeds, and the same pages after one that fails. -/
def settle {α : Type} (s : System) (update : α → List Nat) : Except PagerError α × Pager → System
  | (.ok answer, pager) => ⟨pager, update answer⟩
  | (.error _, pager) => ⟨pager, s.live⟩

def step (s : System) : Call → Option System
  | .allocate journaled => some (s.settle (· :: s.live) (allocatePage journaled s.pager))
  | .reserve nPages => some (s.settle (·.pages ++ s.live) (reserveContigExtent nPages s.pager))
  | .free stored pageId => some (s.settle (fun _ => s.live.erase pageId) (freePage stored pageId s.pager))
  | .enableDeferred => some (s.settle (fun _ => s.live) (enableDeferredReclamation s.pager))
  | .retire stored pageIds =>
    some (s.settle (fun _ => s.live.filter (· ∉ pageIds)) (freeRetiredPages stored pageIds s.pager))
  | .publish stored retained released =>
    some (s.settle (fun _ => s.live.filter (· ∉ released))
      (completeDeferredPublication stored retained released s.pager))
  | .flush => some (s.settle (fun _ => s.live) (Pager.flush s.pager))
  | .write pageId image => some (s.settle (fun _ => s.live) (setPage pageId image s.pager))

def Admits (s : System) : Call → Prop
  | .free _ pageId => pageId ∈ s.live
  | .write pageId _ => pageId ∈ s.live
  | _ => True

def RetiresHeld (s : System) : Call → Prop
  | .retire _ pageIds => ∀ id ∈ pageIds, id ∉ s.pager.deferred.pending
  | _ => True

instance (s : System) (call : Call) : Decidable (s.Admits call) :=
  match call with
  | .free _ pageId => inferInstanceAs (Decidable (pageId ∈ s.live))
  | .write pageId _ => inferInstanceAs (Decidable (pageId ∈ s.live))
  | .allocate _ | .reserve _ | .enableDeferred | .retire .. | .publish .. | .flush => instDecidableTrue

instance (s : System) (call : Call) : Decidable (s.RetiresHeld call) :=
  match call with
  | .retire _ pageIds => inferInstanceAs (Decidable (∀ id ∈ pageIds, id ∉ s.pager.deferred.pending))
  | .allocate _ | .reserve _ | .enableDeferred | .free .. | .publish .. | .flush | .write .. => instDecidableTrue

def Sound (s : System) : Prop := ∃ trunks, Conserved s.pager s.live trunks

theorem settle_sound {α : Type} {s : System} {program : Pager.Op α} {update : α → List Nat}
    (holds : program.wp (fun answer after => ∃ trunks, Conserved after (update answer) trunks)
      (fun _ after => ∃ trunks, Conserved after s.live trunks) s.pager) :
    (s.settle update (program s.pager)).Sound := by
  unfold Program.wp at holds
  rcases called : program s.pager with ⟨error | answer, after⟩ <;> rw [called] at holds <;> exact holds

theorem create_sound : create.Sound := by
  refine ⟨[], rfl, fun id => ?_, rfl, le_rfl⟩
  have outside : ¬ (firstAllocatablePage ≤ id ∧ id < firstAllocatablePage) := by omega
  simp [places, create, Pager.create, FreeList.new, listedIds, hostIds, outside]

theorem step_sound {s t : System} {call : Call} (sound : s.Sound) (admitted : s.Admits call)
    (held : s.RetiresHeld call) (taken : s.step call = some t) : t.Sound := by
  obtain ⟨trunks, conserved⟩ := sound
  cases call with
  | allocate journaled =>
    cases taken
    exact settle_sound (allocatePage_spec conserved journaled)
  | reserve nPages =>
    cases taken
    exact settle_sound ((reserveContigExtent_spec conserved nPages).mono (fun _ _ after => ⟨trunks, after⟩)
      fun _ _ after => ⟨trunks, after⟩)
  | free stored pageId =>
    cases taken
    exact settle_sound ((freePage_spec conserved stored admitted).mono (fun _ _ after => ⟨trunks, after⟩)
      fun _ _ after => ⟨trunks, after⟩)
  | enableDeferred =>
    cases taken
    exact ⟨trunks, conserved.exchange ⟨rfl, rfl⟩ (fun _ _ => rfl) (fun _ => rfl) rfl⟩
  | retire stored pageIds =>
    cases taken
    exact settle_sound ((freeRetiredPages_kept conserved stored held).mono (fun _ _ after => ⟨trunks, after⟩)
      fun _ _ same => ⟨trunks, same ▸ conserved⟩)
  | publish stored retained released =>
    cases taken
    exact settle_sound ((completeDeferredPublication_spec conserved stored retained released).mono
      (fun _ _ after => ⟨trunks, after⟩) fun _ _ same => ⟨trunks, same ▸ conserved⟩)
  | flush =>
    cases taken
    exact settle_sound ((flush_spec conserved).mono (fun _ _ after => after) fun _ _ never => never.elim)
  | write pageId image =>
    cases taken
    refine ⟨trunks, conserved.repaint fun id member => Function.update_of_ne ?_ _ _⟩
    rintro rfl
    exact conserved.live_not_host admitted member

theorem reached_sound {calls : List Call} {s : System}
    (run : Run (Guarded (Steps step) fun s call => s.Admits call ∧ s.RetiresHeld call) create calls s) :
    s.Sound := by
  refine run.invariant ?_ create_sound
  intro before call after sound taken
  exact step_sound sound taken.1.1 taken.1.2 taken.2

/-- Every page from the first allocatable one up to the page count is in one place, once, and what the
    allocator hands out was in no client's hands. -/
theorem pages_conserved {calls : List Call} {s : System}
    (run : Run (Guarded (Steps step) fun s call => s.Admits call ∧ s.RetiresHeld call) create calls s) :
    (∃ trunks, Linked s.pager.pages s.pager.freelist.trunkHead trunks ∧ ∀ id, places s.pager s.live trunks id =
        if firstAllocatablePage ≤ id ∧ id < s.pager.pageCount then 1 else 0) ∧
    (∀ journaled id after, allocatePage journaled s.pager = (.ok id, after) → id ∉ s.live) ∧
    ∀ nPages extent after, reserveContigExtent nPages s.pager = (.ok extent, after) →
      ∀ id ∈ extent.pages, id ∉ s.live := by
  obtain ⟨trunks, conserved⟩ := reached_sound run
  refine ⟨⟨trunks, conserved.linked, conserved.once⟩, ?_, ?_⟩
  · intro journaled id after handed
    obtain ⟨_, later⟩ := (allocatePage_spec conserved journaled).ok handed
    exact later.fresh
  · intro nPages extent after handed id member held
    have bound := ((reserveContigExtent_spec conserved nPages).ok handed).places_le id
    have reserved := count_pos_iff.mpr member
    have kept := count_pos_iff.mpr held
    simp only [places, count_append] at bound
    omega

def blank (id : Nat) : PageImage := .other id

def spillAndConsume : List Call :=
  [.allocate true, .reserve 3, .free blank 68, .free blank 69, .retire blank [67], .flush, .allocate false,
    .allocate true, .enableDeferred, .free blank 70, .publish blank [] [70]]

theorem pages_conserved_spilled :
    ∃ s, Run (Guarded (Steps step) fun s call => s.Admits call ∧ s.RetiresHeld call) create spillAndConsume s ∧
      s.pager.pageCount = 71 ∧
      (∃ trunks, Linked s.pager.pages s.pager.freelist.trunkHead trunks ∧
        ∀ id, places s.pager s.live trunks id = if firstAllocatablePage ≤ id ∧ id < s.pager.pageCount then 1 else 0) := by
  obtain ⟨s, run, count⟩ := execute_reaches step (fun s call => s.Admits call ∧ s.RetiresHeld call) create
    spillAndConsume (fun s => s.pager.pageCount = 71) (by decide +kernel)
  exact ⟨s, run, of_decide_eq_true count, (pages_conserved run).1⟩

/-- A page that waits for deferred publication is retired: it is free and waiting at once, and is handed
    out while it still waits. Its publication then frees it under its new owner. -/
theorem retired_while_pending : (∃ s, Run (Guarded (Steps step) Admits) create
        [.enableDeferred, .allocate false, .free blank 67, .retire blank [67]] s ∧
      s.pager.deferred.pending = [67] ∧ s.pager.freelist.freePages = [67]) ∧
    (∃ s, Run (Guarded (Steps step) Admits) create
        [.enableDeferred, .allocate false, .free blank 67, .retire blank [67], .allocate false] s ∧
      s.live = [67] ∧ s.pager.deferred.pending = [67]) := by
  constructor
  · obtain ⟨s, run, twice⟩ := execute_reaches step Admits create
      [.enableDeferred, .allocate false, .free blank 67, .retire blank [67]]
      (fun s => s.pager.deferred.pending = [67] ∧ s.pager.freelist.freePages = [67]) (by decide +kernel)
    exact ⟨s, run, of_decide_eq_true twice⟩
  · obtain ⟨s, run, twice⟩ := execute_reaches step Admits create
      [.enableDeferred, .allocate false, .free blank 67, .retire blank [67], .allocate false]
      (fun s => s.live = [67] ∧ s.pager.deferred.pending = [67]) (by decide +kernel)
    exact ⟨s, run, of_decide_eq_true twice⟩

end System

end RedDB.Allocator
