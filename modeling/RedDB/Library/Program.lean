import Mathlib

namespace RedDB.Library

theorem except_bind_ok {ε α β : Type} {first : Except ε α} {next : α → Except ε β} {b : β}
    (returned : first >>= next = .ok b) : ∃ a, first = .ok a ∧ next a = .ok b := by
  cases first with
  | error e => cases returned
  | ok a => exact ⟨a, rfl, returned⟩

theorem except_map_ok {ε α β : Type} {program : Except ε α} {f : α → β} {b : β} (done : program.map f = .ok b) :
    ∃ a, program = .ok a ∧ f a = b := by
  cases program with
  | error e => cases done
  | ok a => exact ⟨a, rfl, Except.ok.inj done⟩

def Program (σ ε α : Type) : Type := σ → Except ε α × σ

namespace Program

variable {σ ε α β : Type}

instance : Monad (Program σ ε) where
  pure a := fun s => (.ok a, s)
  bind m f := fun s =>
    match m s with
    | (.ok a, s') => f a s'
    | (.error e, s') => (.error e, s')

def fail (e : ε) : Program σ ε α := fun s => (.error e, s)

def read : Program σ ε σ := fun s => (.ok s, s)

def modify (f : σ → σ) : Program σ ε Unit := fun s => (.ok (), f s)

def lift (result : Except ε α) : Program σ ε α := fun s => (result, s)

def mapError (f : ε → ε) (m : Program σ ε α) : Program σ ε α := fun s =>
  match m s with
  | (.ok a, s') => (.ok a, s')
  | (.error e, s') => (.error (f e), s')

/-- Run `m` and look at how it ended. -/
def attempt (m : Program σ ε α) : Program σ ε (Except ε α) := fun s => (.ok (m s).1, (m s).2)

/-- The program returns into `onOk` or fails into `onError`. -/
def wp (m : Program σ ε α) (onOk : α → σ → Prop) (onError : ε → σ → Prop) (s : σ) : Prop :=
  match m s with
  | (.ok a, s') => onOk a s'
  | (.error e, s') => onError e s'

section

variable {onOk : α → σ → Prop} {onError : ε → σ → Prop} {s : σ}

@[simp] theorem wp_pure (a : α) : wp (pure a : Program σ ε α) onOk onError s ↔ onOk a s := Iff.rfl

@[simp] theorem wp_fail (e : ε) : wp (fail e : Program σ ε α) onOk onError s ↔ onError e s := Iff.rfl

@[simp] theorem wp_read {onOk : σ → σ → Prop} : wp (read : Program σ ε σ) onOk onError s ↔ onOk s s := Iff.rfl

@[simp] theorem wp_modify {onOk : Unit → σ → Prop} (f : σ → σ) :
    wp (modify f : Program σ ε Unit) onOk onError s ↔ onOk () (f s) := Iff.rfl

@[simp] theorem wp_bind {onOk : β → σ → Prop} (m : Program σ ε α) (f : α → Program σ ε β) :
    wp (m >>= f) onOk onError s ↔ wp m (fun a => wp (f a) onOk onError) onError s := by
  simp only [wp, bind]
  rcases m s with ⟨_ | _, _⟩ <;> rfl

@[simp] theorem wp_mapError (f : ε → ε) (m : Program σ ε α) :
    wp (mapError f m) onOk onError s ↔ wp m onOk (fun e => onError (f e)) s := by
  simp only [wp, mapError]
  rcases m s with ⟨_ | _, _⟩ <;> rfl

theorem wp.mono {m : Program σ ε α} {onOk' : α → σ → Prop} {onError' : ε → σ → Prop}
    (holds : wp m onOk onError s) (returned : ∀ a s', onOk a s' → onOk' a s')
    (failed : ∀ e s', onError e s' → onError' e s') : wp m onOk' onError' s := by
  unfold wp at holds ⊢
  rcases h : m s with ⟨e | a, s'⟩ <;> rw [h] at holds
  · exact failed e s' holds
  · exact returned a s' holds

theorem wp.bind {m : Program σ ε α} {f : α → Program σ ε β} {onOk' : β → σ → Prop}
    {onError' : ε → σ → Prop} (first : wp m onOk onError s)
    (second : ∀ a s', onOk a s' → wp (f a) onOk' onError' s')
    (failed : ∀ e s', onError e s' → onError' e s') : wp (m >>= f) onOk' onError' s :=
  (wp_bind m f).mpr (first.mono second failed)

theorem wp.ok {m : Program σ ε α} {a : α} {s' : σ} (holds : wp m onOk onError s) (result : m s = (.ok a, s')) :
    onOk a s' := by
  simpa only [wp, result] using holds

theorem wp.exists_ok {m : Program σ ε α} (holds : wp m onOk (fun _ _ => False) s) :
    ∃ a s', m s = (.ok a, s') ∧ onOk a s' := by
  unfold wp at holds
  rcases h : m s with ⟨e | a, s'⟩ <;> rw [h] at holds
  · exact holds.elim
  · exact ⟨a, s', rfl, holds⟩

theorem wp_lift {result : Except ε α} {a : α} (returned : result = .ok a) (post : onOk a s) :
    wp (lift result : Program σ ε α) onOk onError s := by
  rw [returned]
  exact post

theorem wp_of_eq {m : Program σ ε α} {a : α} {s' : σ} (result : m s = (.ok a, s')) (holds : onOk a s') :
    wp m onOk onError s := by
  simpa only [wp, result] using holds

end

end Program

end RedDB.Library
