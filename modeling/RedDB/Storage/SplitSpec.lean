import RedDB.Storage.StoreSpec

namespace RedDB.Storage

open List Library Library.Cut Program

section

def CutFits (left right : Nat) : Prop := left ≤ leafCapacity ∧ right ≤ leafCapacity

section

variable (total : Nat) (entries : List (Bytes × Bytes)) (index leftBytes : Nat) (best : Option (Nat × Nat))
include total entries index leftBytes best

theorem splitLoop_valid {mid balance : Nat}
    (result : splitLoop total entries index leftBytes best = some (mid, balance)) :
    best = some (mid, balance) ∨
      ∃ left right, entries = left ++ right ∧ left ≠ [] ∧ right ≠ [] ∧ mid + 1 = index + left.length ∧
        CutFits (leftBytes + leafEntriesSize left) (total - (leftBytes + leafEntriesSize left)) := by
  induction entries generalizing index leftBytes best with
  | nil => exact .inl result
  | cons entry entries ih =>
    cases entries with
    | nil => exact .inl result
    | cons next entries =>
      simp only [splitLoop] at result
      rcases ih _ _ _ result with kept | ⟨left, right, cut, -, some_, position, fits⟩
      · split at kept
        · rename_i chosen
          cases kept
          refine .inr ⟨[entry], next :: entries, rfl, by simp, by simp, rfl, ?_⟩
          simp only [leafEntriesSize_cons, leafEntriesSize_nil, add_zero]
          exact ⟨chosen.1, chosen.2.1⟩
        · exact .inl kept
      · refine .inr ⟨entry :: left, right, by simp [cut], by simp, some_, ?_, ?_⟩
        · rw [length_cons]
          omega
        · rwa [leafEntriesSize_cons, ← add_assoc]

theorem splitLoop_isSome (possible : best.isSome ∨ ∃ left right, entries = left ++ right ∧ left ≠ [] ∧ right ≠ [] ∧
      CutFits (leftBytes + leafEntriesSize left) (total - (leftBytes + leafEntriesSize left))) :
    (splitLoop total entries index leftBytes best).isSome := by
  induction entries generalizing index leftBytes best with
  | nil =>
    rcases possible with found | ⟨left, right, cut, some_, -, -⟩
    · exact found
    · exact absurd (append_eq_nil_iff.mp cut.symm).1 some_
  | cons entry entries ih =>
    cases entries with
    | nil =>
      rcases possible with found | ⟨left, right, cut, someLeft, someRight, -⟩
      · exact found
      · have lengths := congrArg List.length cut
        have leftPos := length_pos_iff.mpr someLeft
        have rightPos := length_pos_iff.mpr someRight
        simp only [length_append, length_cons, length_nil] at lengths
        omega
    | cons next entries =>
      unfold splitLoop
      apply ih
      rcases possible with found | ⟨left, right, cut, someLeft, someRight, fits⟩
      · left
        split
        · rfl
        · exact found
      · cases left with
        | nil => exact absurd rfl someLeft
        | cons first left =>
          simp only [cons_append, List.cons.injEq] at cut
          obtain ⟨rfl, rest⟩ := cut
          cases left with
          | nil =>
            left
            simp only [leafEntriesSize_cons, leafEntriesSize_nil, add_zero] at fits
            split
            · rfl
            · rename_i refused
              cases best with
              | some _ => rfl
              | none => exact absurd ⟨fits.1, fits.2, rfl⟩ refused
          | cons second left =>
            right
            refine ⟨second :: left, right, rest, by simp, someRight, ?_⟩
            rwa [leafEntriesSize_cons, ← add_assoc] at fits

end

variable {entries : List (Bytes × Bytes)}

theorem splitPoint_valid {mid : Nat} (result : splitPoint entries = some mid) :
    ∃ left right, entries = left ++ right ∧ left ≠ [] ∧ right ≠ [] ∧ left.length = mid ∧
      leafEntriesSize left ≤ leafCapacity ∧ leafEntriesSize right ≤ leafCapacity := by
  unfold splitPoint at result
  obtain ⟨⟨mid', balance⟩, looped, rfl⟩ := Option.map_eq_some_iff.mp result
  rcases splitLoop_valid _ _ _ _ _ looped with none_ | ⟨left, right, cut, someLeft, someRight, position, fits⟩
  · cases none_
  · refine ⟨left, right, cut, someLeft, someRight, by omega, ?_⟩
    unfold CutFits at fits
    rw [cut, leafEntriesSize_append, zero_add] at fits
    omega

theorem exists_cut_from (left right : List (Bytes × Bytes)) (someLeft : left ≠ []) (someRight : right ≠ [])
    (small : ∀ e ∈ right, leafEntrySize e ≤ 5127) (fits : leafEntriesSize left ≤ leafCapacity)
    (total : leafEntriesSize left + leafEntriesSize right ≤ leafCapacity + 5127) :
    ∃ left' right', left ++ right = left' ++ right' ∧ left' ≠ [] ∧ right' ≠ [] ∧
      leafEntriesSize left' ≤ leafCapacity ∧ leafEntriesSize right' ≤ leafCapacity := by
  have capacity : leafCapacity = 16344 := rfl
  induction right generalizing left with
  | nil => exact absurd rfl someRight
  | cons entry right ih =>
    by_cases done : leafEntriesSize (entry :: right) ≤ leafCapacity
    · exact ⟨left, entry :: right, rfl, someLeft, by simp, fits, done⟩
    · have bound := small entry (by simp)
      rw [leafEntriesSize_cons] at done total
      have more : right ≠ [] := by
        rintro rfl
        rw [leafEntriesSize_nil] at done
        omega
      obtain ⟨left', right', cut, rest⟩ := ih (left ++ [entry]) (by simp) more
        (fun e member => small e (mem_cons_of_mem _ member))
        (by rw [leafEntriesSize_append, leafEntriesSize_cons, leafEntriesSize_nil]; omega)
        (by rw [leafEntriesSize_append, leafEntriesSize_cons, leafEntriesSize_nil]; omega)
      exact ⟨left', right', by rw [← cut, append_assoc, singleton_append], rest⟩

theorem splitPoint_isSome (several : 2 ≤ entries.length)
    (small : ∀ e ∈ entries, leafEntrySize e ≤ 5127) (total : leafEntriesSize entries ≤ leafCapacity + 5127) :
    ∃ mid, splitPoint entries = some mid := by
  have capacity : leafCapacity = 16344 := rfl
  obtain ⟨first, second, rest, rfl⟩ : ∃ first second rest, entries = first :: second :: rest := by
    match entries, several with
    | first :: second :: rest, _ => exact ⟨first, second, rest, rfl⟩
  have bound := small first (by simp)
  rw [leafEntriesSize_cons] at total
  obtain ⟨left, right, cut, someLeft, someRight, fitsLeft, fitsRight⟩ :=
    exists_cut_from [first] (second :: rest) (by simp) (by simp)
      (fun e member => small e (mem_cons_of_mem _ member))
      (by rw [leafEntriesSize_cons, leafEntriesSize_nil]; omega)
      (by rw [leafEntriesSize_cons, leafEntriesSize_nil]; omega)
  rw [singleton_append] at cut
  unfold splitPoint
  have found := splitLoop_isSome (leafEntriesSize (first :: second :: rest)) (first :: second :: rest) 1 0 none
    (.inr ⟨left, right, cut, someLeft, someRight, by rw [zero_add]; exact fitsLeft, by
      rw [cut, leafEntriesSize_append, zero_add, Nat.add_sub_cancel_left]
      exact fitsRight⟩)
  obtain ⟨result, looped⟩ := Option.isSome_iff_exists.mp found
  exact ⟨result.1, by rw [looped]; rfl⟩

end

end RedDB.Storage
