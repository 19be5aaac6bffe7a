import Mathlib

namespace RedDB.Library

open List

inductive Resumption (Op : Type) (Reply : Op → Type) (α : Type) : Type
  | ret (a : α)
  | call (o : Op) (next : Reply o → Resumption Op Reply α)

namespace Resumption

variable {Op : Type} {Reply : Op → Type} {α β : Type}

def bind : Resumption Op Reply α → (α → Resumption Op Reply β) → Resumption Op Reply β
  | ret a, f => f a
  | call o next, f => call o fun reply => (next reply).bind f

instance : Monad (Resumption Op Reply) where
  pure := ret
  bind := bind

def perform (o : Op) : Resumption Op Reply (Reply o) := call o ret

def Within (allowed : Op → Prop) : Resumption Op Reply α → Prop
  | ret _ => True
  | call o next => allowed o ∧ ∀ reply, (next reply).Within allowed

theorem Within.bind {allowed : Op → Prop} {p : Resumption Op Reply α} {f : α → Resumption Op Reply β}
    (first : p.Within allowed) (second : ∀ a, (f a).Within allowed) : (p >>= f).Within allowed := by
  induction p with
  | ret a => exact second a
  | call o next ih => exact ⟨first.1, fun reply => ih reply (first.2 reply)⟩

end Resumption

/-- The effect of an operation of thread `i`, and what is recorded when the thread returns. -/
structure Resource (σ Op : Type) (Reply : Op → Type) (α : Type) where
  perform : Nat → (o : Op) → σ → Reply o × σ
  finish : Nat → α → σ → σ

structure Pool (σ Op : Type) (Reply : Op → Type) (α : Type) where
  shared : σ
  threads : List (Resumption Op Reply α)

namespace Resource

variable {σ Op : Type} {Reply : Op → Type} {α β : Type} (resource : Resource σ Op Reply α)

def settle (i : Nat) (s : σ) : Resumption Op Reply α → σ
  | .ret a => resource.finish i a s
  | .call _ _ => s

variable (pool : Pool σ Op Reply α)

def spawn (p : Resumption Op Reply α) : Pool σ Op Reply α :=
  ⟨resource.settle pool.threads.length pool.shared p, pool.threads ++ [p]⟩

/-- Thread `i` takes its next operation. -/
def resume (i : Nat) : Option (Pool σ Op Reply α) :=
  match pool.threads[i]? with
  | some (.call o next) =>
    let reply := (resource.perform i o pool.shared).1
    some ⟨resource.settle i (resource.perform i o pool.shared).2 (next reply),
      pool.threads.set i (next reply)⟩
  | _ => none

section

variable (inv : σ → Prop) (rely : Nat → σ → σ → Prop) (admits : Nat → Op → σ → Prop)

/-- Whatever the other threads do within `rely i` between its operations, the program of thread `i` keeps the
invariant, does to the others only what they rely on, and returns into `post`. -/
def Spec (i : Nat) (post : β → σ → Prop) : Resumption Op Reply β → σ → Prop
  | .ret b, s => post b s
  | .call o next, s => ∀ s', rely i s s' → inv s' → admits i o s' →
    inv (resource.perform i o s').2 ∧ (∀ j, j ≠ i → rely j s' (resource.perform i o s').2) ∧
      Spec i post (next (resource.perform i o s').1) (resource.perform i o s').2

def Completes (i : Nat) (a : α) (s : σ) : Prop :=
  inv (resource.finish i a s) ∧ ∀ j, j ≠ i → rely j s (resource.finish i a s)

end

variable {inv : σ → Prop} {rely : Nat → σ → σ → Prop} {admits : Nat → Op → σ → Prop}

variable {resource}

theorem spec_bind {i : Nat} {γ : Type} {post : γ → σ → Prop} (p : Resumption Op Reply β)
    (f : β → Resumption Op Reply γ) (s : σ) :
    resource.Spec inv rely admits i post (p >>= f) s ↔
      resource.Spec inv rely admits i (fun b t => resource.Spec inv rely admits i post (f b) t) p s := by
  induction p generalizing s with
  | ret b => exact Iff.rfl
  | call o next ih =>
    refine forall_congr' fun s' => imp_congr_right fun _ => imp_congr_right fun _ =>
      imp_congr_right fun _ => and_congr_right fun _ => and_congr_right fun _ => ?_
    exact ih _ _

theorem Spec.mono {i : Nat} {post other : β → σ → Prop} {p : Resumption Op Reply β} {s : σ}
    (holds : resource.Spec inv rely admits i post p s) (weaker : ∀ b t, post b t → other b t) :
    resource.Spec inv rely admits i other p s := by
  induction p generalizing s with
  | ret b => exact weaker b s holds
  | call o next ih =>
    intro s' later kept admitted
    obtain ⟨invariant, guarantee, rest⟩ := holds s' later kept admitted
    exact ⟨invariant, guarantee, ih _ rest⟩

theorem Spec.within {i : Nat} {allowed : Op → Prop} {knows : σ → Prop} {p : Resumption Op Reply β} {s : σ}
    (stable : ∀ s t, rely i s t → knows s → knows t)
    (effect : ∀ o s, allowed o → inv s → knows s →
      inv (resource.perform i o s).2 ∧ (∀ j, j ≠ i → rely j s (resource.perform i o s).2) ∧
        knows (resource.perform i o s).2)
    (calls : p.Within allowed) (start : knows s) :
    resource.Spec inv rely admits i (fun _ t => knows t) p s := by
  induction p generalizing s with
  | ret b => exact start
  | call o next ih =>
    intro s' later kept _
    obtain ⟨invariant, guarantee, known⟩ := effect o s' calls.1 kept (stable s s' later start)
    exact ⟨invariant, guarantee, ih _ (calls.2 _) known⟩

/-- What a pool keeps: the invariant, the specification of every thread that runs, and that threads not yet
started have left no trace. -/
structure PoolSafe (resource : Resource σ Op Reply α) (inv : σ → Prop) (rely : Nat → σ → σ → Prop)
    (admits : Nat → Op → σ → Prop) (fresh : Nat → σ → Prop) (pool : Pool σ Op Reply α) : Prop where
  invariant : inv pool.shared
  running : ∀ i o next, pool.threads[i]? = some (.call o next) →
    resource.Spec inv rely admits i (resource.Completes inv rely i) (.call o next) pool.shared
  unstarted : ∀ i, pool.threads.length ≤ i → fresh i pool.shared

section

variable {fresh : Nat → σ → Prop} (reflexive : ∀ i s, rely i s s)
  (transitive : ∀ i s t u, rely i s t → rely i t u → rely i s u)
  (traceless : ∀ i s t, rely i s t → fresh i s → fresh i t)

include reflexive in
theorem settle_safe {i : Nat} {p : Resumption Op Reply α} {s : σ} (start : inv s)
    (spec : resource.Spec inv rely admits i (resource.Completes inv rely i) p s) :
    inv (resource.settle i s p) ∧ ∀ j, j ≠ i → rely j s (resource.settle i s p) := by
  cases p with
  | ret a => exact spec
  | call o next => exact ⟨start, fun j _ => reflexive j s⟩

include transitive in
theorem Spec.stable {i : Nat} {post : β → σ → Prop} {o : Op} {next : Reply o → Resumption Op Reply β} {s t : σ}
    (holds : resource.Spec inv rely admits i post (.call o next) s) (later : rely i s t) :
    resource.Spec inv rely admits i post (.call o next) t :=
  fun s' after => holds s' (transitive i s t s' later after)

include transitive traceless in
theorem PoolSafe.environment {pool : Pool σ Op Reply α} {s : σ}
    (safe : PoolSafe resource inv rely admits fresh pool) (kept : inv s)
    (relied : ∀ i, rely i pool.shared s) :
    PoolSafe resource inv rely admits fresh ⟨s, pool.threads⟩ where
  invariant := kept
  running i o next found := (safe.running i o next found).stable transitive (relied i)
  unstarted i absent := traceless i _ _ (relied i) (safe.unstarted i absent)

include reflexive transitive traceless in
theorem PoolSafe.spawn {pool : Pool σ Op Reply α} {p : Resumption Op Reply α}
    (safe : PoolSafe resource inv rely admits fresh pool)
    (spec : resource.Spec inv rely admits pool.threads.length
      (resource.Completes inv rely pool.threads.length) p pool.shared) :
    PoolSafe resource inv rely admits fresh (resource.spawn pool p) := by
  obtain ⟨kept, relied⟩ := settle_safe reflexive safe.invariant spec
  refine ⟨kept, ?_, ?_⟩
  · intro i o next found
    rcases Nat.lt_or_ge i pool.threads.length with old | new
    · rw [Resource.spawn, getElem?_append_left old] at found
      exact (safe.running i o next found).stable transitive (relied i (by omega))
    · have atEnd : i = pool.threads.length := by
        have bound := (List.getElem?_eq_some_iff.mp found).1
        simp only [Resource.spawn, length_append, length_singleton] at bound
        omega
      subst atEnd
      simp only [Resource.spawn, getElem?_concat_length, Option.some.injEq] at found
      subst found
      exact spec
  · intro i absent
    simp only [Resource.spawn, length_append, length_singleton] at absent
    exact traceless i _ _ (relied i (by omega)) (safe.unstarted i (by omega))

include reflexive transitive traceless in
theorem PoolSafe.resume {pool after : Pool σ Op Reply α} {i : Nat}
    (safe : PoolSafe resource inv rely admits fresh pool)
    (admitted : ∀ o next, pool.threads[i]? = some (.call o next) → admits i o pool.shared)
    (taken : resource.resume pool i = some after) :
    PoolSafe resource inv rely admits fresh after := by
  unfold Resource.resume at taken
  split at taken
  · rename_i o next found
    cases taken
    obtain ⟨kept, guarantee, spec⟩ :=
      safe.running i o next found pool.shared (reflexive i _) safe.invariant (admitted o next found)
    obtain ⟨settled, relied⟩ := settle_safe reflexive kept spec
    have others : ∀ j, j ≠ i → rely j pool.shared (resource.settle i (resource.perform i o pool.shared).2
        (next (resource.perform i o pool.shared).1)) :=
      fun j other => transitive j _ _ _ (guarantee j other) (relied j other)
    have bound := (List.getElem?_eq_some_iff.mp found).1
    refine ⟨settled, ?_, ?_⟩
    · intro j o' next' foundAfter
      by_cases same : i = j
      · subst same
        simp only [getElem?_set_self bound, Option.some.injEq] at foundAfter
        rw [foundAfter] at spec ⊢
        exact spec
      · simp only [getElem?_set_ne same] at foundAfter
        exact (safe.running j o' next' foundAfter).stable transitive (others j (Ne.symm same))
    · intro j absent
      simp only [length_set] at absent
      exact traceless j _ _ (others j (by omega)) (safe.unstarted j absent)
  · cases taken

end

end Resource

end RedDB.Library
