import Mathlib

namespace RedDB.Library

variable {σ ε : Type*}

inductive Run (step : σ → ε → σ → Prop) : σ → List ε → σ → Prop
  | done (s : σ) : Run step s [] s
  | more {s t u : σ} {es : List ε} {e : ε} :
      Run step s es t → step t e u → Run step s (es ++ [e]) u

theorem Run.single {step : σ → ε → σ → Prop} {s t : σ} {e : ε} (taken : step s e t) :
    Run step s [e] t := .more (.done s) taken

theorem Run.append {step : σ → ε → σ → Prop} {s t u : σ} {es fs : List ε}
    (first : Run step s es t) (second : Run step t fs u) : Run step s (es ++ fs) u := by
  induction second with
  | done => simpa using first
  | more _ taken ih =>
    rw [← List.append_assoc]
    exact .more ih taken

theorem Run.invariant {step : σ → ε → σ → Prop} {property : σ → Prop}
    (preserved : ∀ s e t, property s → step s e t → property t)
    {s t : σ} {es : List ε} (run : Run step s es t) (initial : property s) : property t := by
  induction run with
  | done => exact initial
  | more _ taken ih => exact preserved _ _ _ ih taken

theorem Run.invariant_history {step : σ → ε → σ → Prop} (property : List ε → σ → Prop)
    (preserved : ∀ es s e t, property es s → step s e t → property (es ++ [e]) t)
    {s t : σ} {es : List ε} (run : Run step s es t) (initial : property [] s) : property es t := by
  induction run with
  | done => exact initial
  | more _ taken ih => exact preserved _ _ _ _ ih taken

theorem Run.mono {step other : σ → ε → σ → Prop} (weaker : ∀ s e t, step s e t → other s e t) {s t : σ} {es : List ε}
    (run : Run step s es t) : Run other s es t := by
  induction run with
  | done => exact .done _
  | more _ taken ih => exact .more ih (weaker _ _ _ taken)

/-- The steps of `step` that a condition on the state before and the label admits. -/
def Guarded (step : σ → ε → σ → Prop) (admits : σ → ε → Prop) (s : σ) (e : ε) (t : σ) : Prop :=
  admits s e ∧ step s e t

def Steps (step : σ → ε → Option σ) (s : σ) (e : ε) (t : σ) : Prop := step s e = some t

section

variable (step : σ → ε → Option σ) (admits : σ → ε → Prop) [∀ s e, Decidable (admits s e)]

def execute : σ → List ε → Option σ
  | s, [] => some s
  | s, e :: es => if admits s e then (step s e).bind fun t => execute t es else none

theorem execute_run {s t : σ} {es : List ε} (reached : execute step admits s es = some t) :
    Run (Guarded (Steps step) admits) s es t := by
  induction es generalizing s with
  | nil =>
    cases reached
    exact .done _
  | cons e es ih =>
    simp only [execute] at reached
    split_ifs at reached with admitted
    obtain ⟨u, taken, rest⟩ := Option.bind_eq_some_iff.mp reached
    exact (Run.single ⟨admitted, taken⟩).append (ih rest)

theorem execute_reaches (s : σ) (es : List ε) (property : σ → Bool)
    (reached : (execute step admits s es).any property = true) :
    ∃ t, Run (Guarded (Steps step) admits) s es t ∧ property t = true := by
  cases final : execute step admits s es with
  | none => simp [final] at reached
  | some t =>
    rw [final] at reached
    exact ⟨t, execute_run step admits final, reached⟩

end

end RedDB.Library
