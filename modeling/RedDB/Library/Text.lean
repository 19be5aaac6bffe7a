import Mathlib

namespace RedDB.Library

open List

section

variable {α : Type*} [DecidableEq α]

def splitOnce (separator : α) : List α → Option (List α × List α)
  | [] => none
  | a :: rest =>
    if a = separator then some ([], rest)
    else (splitOnce separator rest).map fun parts => (a :: parts.1, parts.2)

/-- The place of the first occurrence of `needle`. -/
def findInfix (needle : List α) : List α → Option Nat
  | [] => if needle = [] then some 0 else none
  | a :: rest =>
    if needle <+: a :: rest then some 0 else (findInfix needle rest).map (· + 1)

theorem findInfix_eq_some {needle hay : List α} {i : Nat} (found : findInfix needle hay = some i) :
    needle <+: hay.drop i := by
  induction hay generalizing i with
  | nil =>
    unfold findInfix at found
    split_ifs at found with empty
    cases found
    simp [empty]
  | cons a hay ih =>
    unfold findInfix at found
    split_ifs at found with here
    · cases found
      exact here
    · obtain ⟨j, later, rfl⟩ := Option.map_eq_some_iff.mp found
      exact ih later

theorem splitOn_append_of_notMem {separator : α} {lead : List α} (clear : separator ∉ lead) (rest : List α) :
    ∃ first others, rest.splitOn separator = first :: others ∧
      (lead ++ rest).splitOn separator = (lead ++ first) :: others := by
  induction lead with
  | nil =>
    obtain ⟨first, others, split⟩ := exists_cons_of_ne_nil (splitOn_ne_nil separator rest)
    exact ⟨first, others, split, split⟩
  | cons a lead ih =>
    obtain ⟨first, others, split, whole⟩ := ih fun member => clear (mem_cons_of_mem _ member)
    refine ⟨first, others, split, ?_⟩
    have other : ¬ a = separator := fun same => clear (same ▸ mem_cons_self)
    rw [cons_append, splitOn_cons_eq_if_modifyHead, whole]
    simp [other]

end

end RedDB.Library
