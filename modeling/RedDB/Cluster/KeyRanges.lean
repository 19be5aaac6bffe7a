import RedDB.Cluster.SplitRange

namespace RedDB.Cluster.RangeBounds

variable {r other : RangeBounds} {key : Key}

theorem key_lt_key {a b : Key} : Position.key a < Position.key b ↔ a < b :=
  WithBot.coe_lt_coe.trans WithTop.coe_lt_coe

theorem contains_iff : r.contains key = true ↔ r.lower.position ≤ .key key ∧ .key key < r.upper.position :=
  decide_eq_true_iff

/-- A range holds its lower key, and without one the empty key, unless it ends there. -/
theorem exists_contains (after : r.upper ≠ .key []) : ∃ key, r.contains key = true := by
  obtain ⟨lower, upper, proper⟩ := r
  cases lower with
  | min =>
    refine ⟨[], contains_iff.mpr ⟨bot_le, ?_⟩⟩
    cases upper with
    | min => exact absurd proper (lt_irrefl _)
    | key bytes =>
      cases bytes with
      | nil => exact absurd rfl after
      | cons b bytes => exact key_lt_key.mpr (List.nil_lt_cons b bytes)
    | max => exact WithBot.coe_lt_coe.mpr (WithTop.coe_lt_top _)
  | key bytes => exact ⟨bytes, contains_iff.mpr ⟨le_rfl, proper⟩⟩
  | max => exact absurd proper not_top_lt

theorem contains_intersection (shared : r.overlaps other = true) :
    contains ⟨r.laterLower other, r.earlierUpper other, proper_intersection shared⟩ key = true ↔
      r.contains key = true ∧ other.contains key = true := by
  simp only [contains_iff, laterLower, earlierUpper]
  constructor
  · rintro ⟨above, below⟩
    split_ifs at above below with later earlier earlier <;> grind
  · rintro ⟨⟨above, below⟩, aboveOther, belowOther⟩
    split_ifs <;> grind

theorem mem_intersection : (∃ shared ∈ r.intersection other, shared.contains key = true) ↔
    r.contains key = true ∧ other.contains key = true := by
  unfold intersection
  split_ifs with shared
  · simp [contains_intersection shared]
  · refine ⟨by simp, fun both => absurd (overlaps_of_contains both.1 both.2) shared⟩

theorem not_contains (ends : r.upper = .key []) : r.contains key = false :=
  decide_eq_false fun inside => List.not_lt_nil key (key_lt_key.mp (by simpa [ends] using inside.2))

theorem not_lt_empty {b : RangeBound} : b.position < .key [] ↔ b = .min := by
  cases b with
  | min => exact iff_of_true (WithBot.bot_lt_coe _) rfl
  | key bytes => simpa [RangeBound.position] using fun below => List.not_lt_nil bytes (key_lt_key.mp below)
  | max => simp [RangeBound.position]

theorem exists_common (after : r.upper ≠ .key []) (afterOther : other.upper ≠ .key [])
    (shared : r.overlaps other = true) : ∃ key, r.contains key = true ∧ other.contains key = true := by
  have ends : r.earlierUpper other ≠ .key [] := by
    unfold earlierUpper
    split_ifs
    · exact after
    · exact afterOther
  obtain ⟨key, held⟩ := exists_contains (r := ⟨_, _, proper_intersection shared⟩) ends
  exact ⟨key, (contains_intersection shared).mp held⟩

/-- A range that ends at the empty key starts at `Min`, so it overlaps exactly the ranges that start there too. -/
theorem overlaps_of_ends (ends : r.upper = .key []) : r.overlaps other = true ↔ r.lower = .min ∧ other.lower = .min := by
  have starts : r.lower = .min := not_lt_empty.mp (by simpa [ends] using r.proper)
  have below : r.lower.position < other.upper.position := starts ▸ lt_of_le_of_lt bot_le other.proper
  rw [overlaps, decide_eq_true_iff, and_iff_right below, ends, and_iff_right starts]
  exact not_lt_empty

/-- Splitting and intersecting are exact on every range. A range holds a key exactly if it does not end at the empty
    one, and overlap means a common key exactly if neither range does or one of them starts at a key. -/
theorem keyRanges_exact (r other : RangeBounds) :
    ((∃ key, r.contains key = true) ↔ r.upper ≠ .key []) ∧
    (∀ at_ lower upper, r.splitAt at_ = .ok (lower, upper) → ∀ key,
      r.contains key = (lower.contains key != upper.contains key) ∧
        ¬ (lower.contains key = true ∧ upper.contains key = true)) ∧
    (∀ key, (∃ shared ∈ r.intersection other, shared.contains key = true) ↔
      r.contains key = true ∧ other.contains key = true) ∧
    ((r.overlaps other = true ↔ ∃ key, r.contains key = true ∧ other.contains key = true) ↔
      r.upper ≠ .key [] ∧ other.upper ≠ .key [] ∨ r.lower ≠ .min ∨ other.lower ≠ .min) := by
  have holds : (∃ key, r.contains key = true) → r.upper ≠ .key [] := by
    rintro ⟨key, inside⟩ ends
    rw [not_contains ends] at inside
    cases inside
  refine ⟨⟨holds, exists_contains⟩, fun at_ lower upper split key => ⟨splitAt_tiles split, fun both => ?_⟩,
    fun key => mem_intersection, ?_⟩
  · have shared := overlaps_of_contains both.1 both.2
    rw [splitAt_apart split] at shared
    cases shared
  have backward : (∃ key, r.contains key = true ∧ other.contains key = true) → r.overlaps other = true :=
    fun ⟨_, first, second⟩ => overlaps_of_contains first second
  by_cases ends : r.upper = .key []
  · simp [overlaps_of_ends ends, not_contains ends, ends, imp_iff_not_or]
  by_cases endsOther : other.upper = .key []
  · simp [overlaps_comm r, overlaps_of_ends endsOther, not_contains endsOther, endsOther, imp_iff_not_or, or_comm]
  · exact iff_of_true ⟨exists_common ends endsOther, backward⟩ (.inl ⟨ends, endsOther⟩)

/-- No key is below the empty one, but the bounds from `Min` up to it are accepted and overlap themselves. -/
theorem empty_range_accepted : ∃ r, new .min (.key []) = .ok r ∧ (∀ key, r.contains key = false) ∧
    r.overlaps r = true := by
  refine ⟨⟨.min, .key [], WithBot.bot_lt_coe _⟩, dif_pos (WithBot.bot_lt_coe _), fun key => ?_, ?_⟩
  · exact not_contains rfl
  · exact decide_eq_true ⟨WithBot.bot_lt_coe _, WithBot.bot_lt_coe _⟩

end RedDB.Cluster.RangeBounds
