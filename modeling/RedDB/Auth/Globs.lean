import RedDB.Auth.Policies

namespace RedDB.Auth

open List Library

/-- The input is the pattern with some text in the place of each `*`. -/
def Fills : List Char → List Char → Prop
  | [], input => input = []
  | c :: pattern, input =>
    if c = '*' then ∃ text rest, input = text ++ rest ∧ Fills pattern rest
    else ∃ rest, input = c :: rest ∧ Fills pattern rest

def Chained (first : List Char) : List (List Char) → List Char → Prop
  | [], input => input = first
  | second :: others, input => ∃ text rest, input = first ++ (text ++ rest) ∧ Chained second others rest

def InOrder : List (List Char) → List Char → Prop
  | [], _ => True
  | segment :: others, hay => ∃ text rest, hay = text ++ (segment ++ rest) ∧ InOrder others rest

section

variable {segment input hay : List Char} {segments : List (List Char)}

theorem fills_iff {pattern first : List Char} {others : List (List Char)}
    (split : pattern.splitOn '*' = first :: others) : Fills pattern input ↔ Chained first others input := by
  induction pattern generalizing first others input with
  | nil =>
    cases split
    exact Iff.rfl
  | cons c pattern ih =>
    obtain ⟨lead, parts, later⟩ := exists_cons_of_ne_nil (splitOn_ne_nil '*' pattern)
    rw [splitOn_cons_eq_if_modifyHead, later] at split
    by_cases star : c = '*'
    · rw [if_pos (beq_iff_eq.mpr star)] at split
      cases split
      simp only [Fills, if_pos star, Chained, nil_append, ih later]
    · rw [if_neg (mt beq_iff_eq.mp star)] at split
      cases split
      simp only [Fills, if_neg star, ih later]
      cases others with
      | nil => simp [Chained]
      | cons second others =>
        constructor
        · rintro ⟨rest, rfl, text, tail, rfl, chained⟩
          exact ⟨text, tail, rfl, chained⟩
        · rintro ⟨text, tail, rfl, chained⟩
          exact ⟨_, rfl, text, tail, rfl, chained⟩

theorem Chained.starts {first : List Char} (chained : Chained first segments input) : first <+: input := by
  cases segments with
  | nil => exact chained ▸ prefix_rfl
  | cons second others =>
    obtain ⟨text, rest, rfl, -⟩ := chained
    exact prefix_append ..

theorem InOrder.append_left (text : List Char) (ordered : InOrder segments hay) : InOrder segments (text ++ hay) := by
  cases segments with
  | nil => trivial
  | cons segment segments =>
    obtain ⟨before, rest, rfl, others⟩ := ordered
    exact ⟨text ++ before, rest, (append_assoc ..).symm, others⟩

theorem inOrder_filter : InOrder (segments.filter (· ≠ [])) hay ↔ InOrder segments hay := by
  induction segments generalizing hay with
  | nil => exact Iff.rfl
  | cons segment segments ih =>
    by_cases empty : segment = []
    · subst empty
      rw [filter_cons_of_neg (by simp), ih]
      constructor
      · exact fun ordered => ⟨[], hay, rfl, ordered⟩
      · rintro ⟨text, rest, rfl, ordered⟩
        exact ordered.append_left text
    · rw [filter_cons_of_pos (by simpa using empty)]
      simp only [InOrder, ih]

theorem findInfix_le (segment text rest : List Char) :
    ∃ i ≤ text.length, findInfix segment (text ++ (segment ++ rest)) = some i := by
  induction text with
  | nil =>
    refine ⟨0, le_rfl, ?_⟩
    rw [nil_append]
    cases whole : segment ++ rest with
    | nil => rw [findInfix, if_pos (append_eq_nil_iff.mp whole).1]
    | cons c tail => rw [findInfix, if_pos (whole ▸ prefix_append segment rest)]
  | cons c text ih =>
    obtain ⟨i, early, found⟩ := ih
    rw [cons_append, findInfix]
    split_ifs
    · exact ⟨0, Nat.zero_le _, rfl⟩
    · exact ⟨i + 1, Nat.succ_le_succ early, by rw [found]; rfl⟩

/-- The leftmost place of a segment leaves the most text for those after it. -/
theorem inOrder_cons_iff {i : Nat} (found : findInfix segment hay = some i) :
    InOrder (segment :: segments) hay ↔ InOrder segments (hay.drop (i + segment.length)) := by
  constructor
  · rintro ⟨text, rest, rfl, ordered⟩
    obtain ⟨j, early, leftmost⟩ := findInfix_le segment text rest
    obtain rfl : i = j := Option.some.inj (found.symm.trans leftmost)
    rw [← append_assoc, drop_append_of_le_length (by rw [length_append]; omega)]
    exact ordered.append_left _
  · intro ordered
    obtain ⟨rest, here⟩ := findInfix_eq_some found
    rw [← drop_drop, ← here, drop_left] at ordered
    exact ⟨hay.take i, rest, by rw [here, take_append_drop], ordered⟩

theorem segmentsMatch_iff {innerEnd cursor : Nat} :
    segmentsMatch input innerEnd cursor segments = true ↔ InOrder segments ((input.take innerEnd).drop cursor) := by
  induction segments generalizing cursor with
  | nil => simp [segmentsMatch, InOrder]
  | cons segment segments ih =>
    rw [segmentsMatch]
    cases found : findInfix segment ((input.take innerEnd).drop cursor) with
    | none =>
      refine ⟨nofun, ?_⟩
      rintro ⟨text, rest, place, -⟩
      obtain ⟨i, -, leftmost⟩ := findInfix_le segment text rest
      rw [place, leftmost] at found
      cases found
    | some i => rw [inOrder_cons_iff found, drop_drop, ih]

theorem chained_iff {first last : List Char} :
    Chained first (segments ++ [last]) input ↔ ∃ inner, input = first ++ (inner ++ last) ∧ InOrder segments inner := by
  induction segments generalizing first input with
  | nil =>
    constructor
    · rintro ⟨text, rest, rfl, rfl⟩
      exact ⟨text, rfl, trivial⟩
    · rintro ⟨inner, rfl, -⟩
      exact ⟨inner, last, rfl, rfl⟩
  | cons segment segments ih =>
    constructor
    · rintro ⟨text, rest, rfl, chained⟩
      obtain ⟨inner, rfl, ordered⟩ := ih.mp chained
      exact ⟨text ++ (segment ++ inner), by simp, text, inner, rfl, ordered⟩
    · rintro ⟨inner, rfl, text, rest, rfl, ordered⟩
      exact ⟨text, segment ++ (rest ++ last), by simp, ih.mpr ⟨rest, rfl, ordered⟩⟩

theorem inner_eq (first inner last : List Char) :
    ((first ++ (inner ++ last)).take ((first ++ (inner ++ last)).length - last.length)).drop first.length = inner := by
  rw [← append_assoc, length_append, Nat.add_sub_cancel, take_left, drop_left]

theorem globMatches_inner {first last : List Char} : globMatches ⟨first, last, segments⟩ input = true ↔
      ∃ inner, input = first ++ (inner ++ last) ∧ InOrder segments inner := by
  constructor
  · intro matched
    unfold globMatches at matched
    split_ifs at matched with starts ends short
    obtain ⟨body, rfl⟩ := ends
    rw [length_append] at short
    obtain ⟨inner, rfl⟩ := prefix_of_prefix_length_le starts (prefix_append body last) (by omega)
    rw [segmentsMatch_iff, append_assoc, inner_eq] at matched
    exact ⟨inner, append_assoc .., matched⟩
  · rintro ⟨inner, rfl, ordered⟩
    have ends : last <:+ first ++ (inner ++ last) := ⟨first ++ inner, append_assoc ..⟩
    rw [globMatches, if_neg (not_not.mpr (prefix_append ..)), if_neg (not_not.mpr ends), if_neg, segmentsMatch_iff,
      inner_eq]
    · exact ordered
    · simp only [length_append]
      omega

end

theorem globMatches_chained {pattern input first last : List Char} {segments : List (List Char)}
    (split : pattern.splitOn '*' = first :: (segments ++ [last])) :
    globMatches (compileGlob pattern) input = true ↔ Chained first (segments ++ [last]) input := by
  have compiled : compileGlob pattern = ⟨first, last, segments.filter (· ≠ [])⟩ := by
    simp [compileGlob, split, getLast?_cons]
  rw [compiled, globMatches_inner, chained_iff]
  simp only [inOrder_filter]

theorem globMatches_starred {pattern : List Char} (starred : '*' ∈ pattern) (input : List Char) :
    globMatches (compileGlob pattern) input = true ↔ Fills pattern input := by
  obtain ⟨lead, rest, rfl, clear⟩ := eq_append_cons_of_mem starred
  obtain ⟨first, others, split, whole⟩ := splitOn_append_of_notMem clear ('*' :: rest)
  rw [splitOn_cons_eq_if_modifyHead, if_pos (beq_self_eq_true '*')] at split
  cases split
  rw [← dropLast_concat_getLast (splitOn_ne_nil '*' rest)] at whole
  rw [globMatches_chained whole, fills_iff whole]

theorem compileGlob_literal {pattern : List Char} (literal : '*' ∉ pattern) :
    compileGlob pattern = ⟨pattern, [], []⟩ := by
  simp [compileGlob, splitOn_eq_singleton literal]

/-- A pattern matches the inputs that fill it, and no others, exactly if it has a `*`: one without accepts whatever
    it is a start of. -/
theorem globMatches_iff_fills (pattern : List Char) :
    (∀ input, globMatches (compileGlob pattern) input = true ↔ Fills pattern input) ↔ '*' ∈ pattern := by
  refine ⟨fun exact_ => by_contra fun literal => ?_, globMatches_starred⟩
  have longer := (exact_ (pattern ++ ['x'])).mp ?_
  · rw [fills_iff (splitOn_eq_singleton literal)] at longer
    exact absurd longer (by simp [Chained])
  · rw [compileGlob_literal literal, globMatches_inner]
    exact ⟨['x'], by simp, trivial⟩

/-- Without a `*` the pattern is only a start of what it matches. -/
theorem literal_matches_longer :
    globMatches (compileGlob "table".toList) "tables".toList = true ∧ ¬ Fills "table".toList "tables".toList :=
  ⟨by decide, by simp [Fills]⟩

end RedDB.Auth
