import Mathlib

namespace RedDB.Library.Wildcard

variable {α : Type} [DecidableEq α]

/-- The text matches the pattern, in which `any` stands for a run of symbols, `one` for a single symbol and every
other symbol for itself. -/
def Matches (any one : α) : List α → List α → Prop
  | [], text => text = []
  | symbol :: pattern, text =>
    if symbol = any then ∃ run rest, text = run ++ rest ∧ Matches any one pattern rest
    else ∃ c rest, text = c :: rest ∧ (symbol = one ∨ symbol = c) ∧ Matches any one pattern rest

variable {any one : α} {text pattern : List α}

@[simp] theorem matches_nil : Matches any one [] text ↔ text = [] := Iff.rfl

theorem matches_any :
    Matches any one (any :: pattern) text ↔ ∃ run rest, text = run ++ rest ∧ Matches any one pattern rest := by
  simp [Matches]

theorem matches_symbol {symbol : α} (other : symbol ≠ any) : Matches any one (symbol :: pattern) text ↔
      ∃ c rest, text = c :: rest ∧ (symbol = one ∨ symbol = c) ∧ Matches any one pattern rest := by
  simp [Matches, other]

theorem matches_empty_text : Matches any one pattern [] ↔ ∀ symbol ∈ pattern, symbol = any := by
  induction pattern with
  | nil => simp
  | cons symbol pattern ih =>
    by_cases wild : symbol = any
    · subst wild
      simp [matches_any, ih]
    · simp [matches_symbol wild, wild]

theorem matches_append {run : List α} (plain : any ∉ run) (matched : Matches any one (run ++ pattern) text) :
    ∃ taken rest, text = taken ++ rest ∧ taken.length = run.length ∧ Matches any one pattern rest := by
  induction run generalizing text with
  | nil => exact ⟨[], text, rfl, rfl, matched⟩
  | cons symbol run ih =>
    obtain ⟨other, plain⟩ := List.ne_and_not_mem_of_not_mem_cons plain
    obtain ⟨c, rest, rfl, -, matched⟩ := (matches_symbol (Ne.symm other)).mp matched
    obtain ⟨taken, rest, rfl, length, matched⟩ := ih plain matched
    exact ⟨c :: taken, rest, rfl, by simp [length], matched⟩

def MatchesLater (any one : α) (pattern text : List α) : Prop :=
  ∃ run rest, text = run ++ rest ∧ run ≠ [] ∧ Matches any one pattern rest

theorem matches_any_iff_now_or_later :
    Matches any one (any :: pattern) text ↔ Matches any one pattern text ∨ MatchesLater any one pattern text := by
  rw [matches_any]
  constructor
  · rintro ⟨run, rest, rfl, matched⟩
    by_cases empty : run = []
    · subst empty
      exact .inl matched
    · exact .inr ⟨run, rest, rfl, empty, matched⟩
  · rintro (matched | ⟨run, rest, rfl, -, matched⟩)
    · exact ⟨[], text, rfl, matched⟩
    · exact ⟨run, rest, rfl, matched⟩

theorem matchesLater_cons {c : α} :
    MatchesLater any one pattern (c :: text) ↔ Matches any one (any :: pattern) text := by
  rw [matches_any]
  constructor
  · rintro ⟨run, rest, split, nonempty, matched⟩
    obtain ⟨first, run, rfl⟩ := List.exists_cons_of_ne_nil nonempty
    obtain ⟨rfl, rfl⟩ := List.cons_eq_cons.mp split
    exact ⟨run, rest, rfl, matched⟩
  · rintro ⟨run, rest, rfl, matched⟩
    exact ⟨c :: run, rest, rfl, List.cons_ne_nil _ _, matched⟩

end RedDB.Library.Wildcard
