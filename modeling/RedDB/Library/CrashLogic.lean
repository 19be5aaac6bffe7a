import RedDB.Library.Interleave

namespace RedDB.Library

variable {σ Op : Type} {Reply : Op → Type} {ε α β : Type}

namespace Resumption

variable (perform : (o : Op) → σ → Reply o × σ)

def execute : Resumption Op Reply α → σ → α × σ
  | ret a, s => (a, s)
  | call o next, s => (next (perform o s).1).execute (perform o s).2

def trace : Resumption Op Reply α → σ → List (Op × σ)
  | ret _, _ => []
  | call o next, s => (o, s) :: (next (perform o s).1).trace (perform o s).2

/-- Every operation finds a state that `guard` allows, and the run returns into `post`. -/
def wp (guard : Op → σ → Prop) (post : α → σ → Prop) : Resumption Op Reply α → σ → Prop
  | ret a, s => post a s
  | call o next, s => guard o s ∧ (next (perform o s).1).wp guard post (perform o s).2

variable {perform}

theorem wp_iff {guard : Op → σ → Prop} {post : α → σ → Prop} {p : Resumption Op Reply α} {s : σ} :
    p.wp perform guard post s ↔
      (∀ visit ∈ p.trace perform s, guard visit.1 visit.2) ∧ post (p.execute perform s).1 (p.execute perform s).2 := by
  induction p generalizing s with
  | ret a => simp [wp, trace, execute]
  | call o next ih => simp [wp, trace, execute, ih, and_assoc]

theorem wp_bind {guard : Op → σ → Prop} {post : β → σ → Prop} (p : Resumption Op Reply α)
    (f : α → Resumption Op Reply β) (s : σ) :
    (p >>= f).wp perform guard post s ↔ p.wp perform guard (fun a => (f a).wp perform guard post) s := by
  induction p generalizing s with
  | ret a => exact Iff.rfl
  | call o next ih => exact and_congr_right fun _ => ih _ _

theorem wp.mono {guard guard' : Op → σ → Prop} {post post' : α → σ → Prop} {p : Resumption Op Reply α} {s : σ}
    (holds : p.wp perform guard post s) (allowed : ∀ o t, guard o t → guard' o t)
    (returned : ∀ a t, post a t → post' a t) : p.wp perform guard' post' s := by
  obtain ⟨visits, result⟩ := wp_iff.mp holds
  exact wp_iff.mpr ⟨fun visit member => allowed _ _ (visits visit member), returned _ _ result⟩

end Resumption

abbrev Fallible (Op : Type) (Reply : Op → Type) (ε α : Type) : Type := ExceptT ε (Resumption Op Reply) α

namespace Fallible

def outcome (onOk : α → σ → Prop) (onError : ε → σ → Prop) : Except ε α → σ → Prop
  | .ok a, s => onOk a s
  | .error e, s => onError e s

def attempt (p : Fallible Op Reply ε α) : Fallible Op Reply ε (Except ε α) := ExceptT.lift p.run

def gather (f : β → Fallible Op Reply ε (List α)) : List β → Fallible Op Reply ε (List α)
  | [] => pure []
  | b :: rest => do
    let first ← f b
    let others ← gather f rest
    pure (first ++ others)

variable (perform : (o : Op) → σ → Reply o × σ)

def wp (guard : Op → σ → Prop) (onOk : α → σ → Prop) (onError : ε → σ → Prop) (p : Fallible Op Reply ε α) (s : σ) :
    Prop := Resumption.wp perform guard (outcome onOk onError) p.run s

section

variable {perform} {guard : Op → σ → Prop} {onOk : α → σ → Prop} {onError : ε → σ → Prop} {s : σ}

@[simp] theorem wp_pure (a : α) : wp perform guard onOk onError (pure a) s ↔ onOk a s := Iff.rfl

@[simp] theorem wp_throw (e : ε) : wp perform guard onOk onError (throw e) s ↔ onError e s := Iff.rfl

@[simp] theorem wp_bind {onOk : β → σ → Prop} (p : Fallible Op Reply ε α) (f : α → Fallible Op Reply ε β) :
    wp perform guard onOk onError (p >>= f) s ↔
      wp perform guard (fun a => wp perform guard onOk onError (f a)) onError p s := by
  unfold wp
  rw [ExceptT.run_bind, Resumption.wp_bind]
  refine iff_of_eq (congrArg (fun post => Resumption.wp perform guard post p.run s) ?_)
  funext result t
  cases result <;> rfl

theorem wp.mono {guard' : Op → σ → Prop} {onOk' : α → σ → Prop} {onError' : ε → σ → Prop}
    {p : Fallible Op Reply ε α} (holds : wp perform guard onOk onError p s)
    (allowed : ∀ o t, guard o t → guard' o t) (returned : ∀ a t, onOk a t → onOk' a t)
    (failed : ∀ e t, onError e t → onError' e t) : wp perform guard' onOk' onError' p s := by
  refine Resumption.wp.mono holds allowed ?_
  rintro (e | a) t result
  · exact failed e t result
  · exact returned a t result

theorem wp.bind {onOk' : β → σ → Prop} {onError' : ε → σ → Prop} {p : Fallible Op Reply ε α}
    {f : α → Fallible Op Reply ε β} (first : wp perform guard onOk onError p s)
    (second : ∀ a t, onOk a t → wp perform guard onOk' onError' (f a) t)
    (failed : ∀ e t, onError e t → onError' e t) : wp perform guard onOk' onError' (p >>= f) s :=
  (wp_bind p f).mpr (first.mono (fun _ _ => id) second failed)

theorem wp_forM {items : List β} {body : β → Fallible Op Reply ε Unit} {invariant : σ → Prop}
    (round : ∀ b ∈ items, ∀ t, invariant t → wp perform guard (fun _ => invariant) onError (body b) t)
    (start : invariant s) : wp perform guard (fun _ => invariant) onError (items.forM body) s := by
  induction items generalizing s with
  | nil => exact start
  | cons b items ih =>
    refine wp.bind (round b List.mem_cons_self s start) (fun _ t kept => ?_) fun _ _ => id
    exact ih (fun b member => round b (List.mem_cons_of_mem _ member)) kept

theorem wp_gather {items : List β} {f : β → Fallible Op Reply ε (List α)} {invariant : σ → Prop}
    (round : ∀ b ∈ items, ∀ t, invariant t → wp perform guard (fun _ => invariant) onError (f b) t)
    (start : invariant s) : wp perform guard (fun _ => invariant) onError (gather f items) s := by
  induction items generalizing s with
  | nil => exact start
  | cons b items ih =>
    refine wp.bind (round b List.mem_cons_self s start) (fun _ t kept => ?_) fun _ _ => id
    exact wp.bind (ih (fun b member => round b (List.mem_cons_of_mem _ member)) kept) (fun _ _ kept => kept)
      fun _ _ => id

end

section

variable {allowed : Op → Prop}

def Within (allowed : Op → Prop) (p : Fallible Op Reply ε α) : Prop := Resumption.Within allowed p.run

theorem within_pure (a : α) : Within allowed (pure a : Fallible Op Reply ε α) := trivial

theorem within_throw (e : ε) : Within allowed (throw e : Fallible Op Reply ε α) := trivial

theorem within_lift {o : Op} (kind : allowed o) :
    Within allowed (ExceptT.lift (Resumption.perform o) : Fallible Op Reply ε (Reply o)) := ⟨kind, fun _ => trivial⟩

theorem Within.bind {p : Fallible Op Reply ε α} {f : α → Fallible Op Reply ε β} (first : Within allowed p)
    (second : ∀ a, Within allowed (f a)) : Within allowed (p >>= f) := by
  refine Resumption.Within.bind first ?_
  rintro (e | a)
  · trivial
  · exact second a

theorem Within.forM {items : List β} {body : β → Fallible Op Reply ε Unit}
    (round : ∀ b, Within allowed (body b)) : Within allowed (items.forM body) := by
  induction items with
  | nil => trivial
  | cons b items ih => exact (round b).bind fun _ => ih

end

section

variable {γ : Type} {resource : Resource σ Op Reply γ} {inv : σ → Prop} {rely : Nat → σ → σ → Prop}
  {admits : Nat → Op → σ → Prop} {i : Nat} {s : σ}

theorem spec_bind {onOk : β → σ → Prop} {onError : ε → σ → Prop} (p : Fallible Op Reply ε α)
    (f : α → Fallible Op Reply ε β) :
    resource.Spec inv rely admits i (outcome onOk onError) (p >>= f).run s ↔ resource.Spec inv rely admits i
        (outcome (fun a => resource.Spec inv rely admits i (outcome onOk onError) (f a).run) onError) p.run s := by
  rw [ExceptT.run_bind, Resource.spec_bind]
  refine iff_of_eq (congrArg (fun post => resource.Spec inv rely admits i post p.run s) ?_)
  funext result t
  cases result <;> rfl

end

end Fallible

end RedDB.Library
