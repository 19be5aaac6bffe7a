import RedDB.Types.Decimal

namespace RedDB.Types

open List Library Prod.Lex Ordering Std.OrientedCmp Int

theorem i32_eq {n : Int} (low : -2 ^ 31 ≤ n) (high : n < 2 ^ 31) : i32 n = n := by
  unfold i32
  apply bmod_eq_of_le <;> omega

theorem usizeOfI32_eq {n : Int} (low : 0 ≤ n) (high : n < 2 ^ 31) : usizeOfI32 n = n.toNat := by
  unfold usizeOfI32
  rw [emod_eq_of_lt low (by omega)]

section

variable {ds : List Char}

theorem dropLeadingZeros_spec (digits : AllDigits ds) (nonempty : ds ≠ []) :
    AllDigits (dropLeadingZeros ds) ∧ dropLeadingZeros ds ≠ [] ∧
      digitsValue (dropLeadingZeros ds) = digitsValue ds ∧ (dropLeadingZeros ds).length ≤ ds.length ∧
      (dropLeadingZeros ds = ['0'] ∨ (dropLeadingZeros ds).head? ≠ some '0') := by
  fun_induction dropLeadingZeros ds with
  | case1 c rest ih =>
    obtain ⟨all, some_, value, shorter, leading⟩ := ih (fun d member => digits d (mem_cons_of_mem _ member))
      (cons_ne_nil _ _)
    refine ⟨all, some_, ?_, ?_, leading⟩
    · rw [value, digitsValue_zero_cons]
    · exact shorter.trans (Nat.le_succ _)
  | case2 ds other =>
    refine ⟨digits, nonempty, rfl, le_refl _, ?_⟩
    cases ds with
    | nil => exact absurd rfl nonempty
    | cons d rest =>
      by_cases zero : d = '0'
      · cases rest with
        | nil => exact .inl (by rw [zero])
        | cons c rest => exact absurd (by rw [zero]) (other c rest)
      · exact .inr (by simpa using zero)

theorem dropTrailingZeros_spec (rs : List Char) (scale : Int) :
    ∃ k : Nat, rs = List.replicate k '0' ++ (dropTrailingZeros rs scale).1 ∧
      (dropTrailingZeros rs scale).2 = scale - k ∧ (0 < k → 0 ≤ (dropTrailingZeros rs scale).2) ∧
      (rs ≠ [] → (dropTrailingZeros rs scale).1 ≠ []) := by
  fun_induction dropTrailingZeros rs scale with
  | case1 c rest scale positive ih =>
    obtain ⟨k, split, shifted, low, some_⟩ := ih
    refine ⟨k + 1, ?_, ?_, fun _ => ?_, fun _ => some_ (cons_ne_nil _ _)⟩
    · rw [replicate_succ, cons_append, ← split]
    · rw [shifted]
      push_cast
      ring
    · rcases Nat.eq_zero_or_pos k with rfl | more
      · rw [shifted]
        omega
      · exact low more
  | case2 c rest scale stopped
  | case3 ds scale other => exact ⟨0, rfl, by simp, fun impossible => absurd impossible (by decide), id⟩

def scaled (digits : List Char) (scale : Int) : ℚ := digitsValue digits * (10 : ℚ) ^ (-scale)

theorem scaled_append_zeros (digits : List Char) (k : Nat) (scale : Int) :
    scaled (digits ++ List.replicate k '0') scale = scaled digits (scale - k) := by
  have ten : (10 : ℚ) ≠ 0 := by norm_num
  unfold scaled
  rw [digitsValue_append_zeros, neg_sub, zpow_sub₀ ten, zpow_neg, zpow_natCast]
  push_cast
  ring

theorem scaled_zero (scale : Int) : scaled ['0'] scale = 0 := by
  simp [scaled]

theorem eq_replicate_of_all (zeros : ds.all (· = '0') = true) : ds = List.replicate ds.length '0' := by
  apply eq_replicate_of_mem
  intro c member
  simpa using all_eq_true.mp zeros c member

structure Trimmed (ds : List Char) (scale : Int) : Prop where
  digits : AllDigits ds
  nonempty : ds ≠ []
  nonneg : 0 ≤ scale
  leading : (ds = ['0'] ∧ scale = 0) ∨ ds.head? ≠ some '0'

theorem trimDecimal_spec {scale : Int} (digits : AllDigits ds) (nonempty : ds ≠ []) (low : -2 ^ 31 < scale) :
    Trimmed (trimDecimal ds scale).1 (trimDecimal ds scale).2 ∧
      scaled (trimDecimal ds scale).1 (trimDecimal ds scale).2 = scaled ds scale ∧
      (trimDecimal ds scale).2 ≤ max scale 0 ∧
      (trimDecimal ds scale).1.length ≤ ds.length + (-scale).toNat := by
  obtain ⟨all, some_, value, shorter, leading⟩ := dropLeadingZeros_spec digits nonempty
  obtain ⟨k, split, shifted, kept, remains⟩ := dropTrailingZeros_spec (dropLeadingZeros ds).reverse scale
  cases trailing : dropTrailingZeros (dropLeadingZeros ds).reverse scale with
  | mk rs rest =>
    rw [trailing] at split shifted kept remains
    simp only at split shifted kept remains
    have whole : dropLeadingZeros ds = rs.reverse ++ List.replicate k '0' := by
      rw [← reverse_reverse (dropLeadingZeros ds), split, reverse_append, reverse_replicate]
    have front : rs.reverse ≠ [] := by simpa using remains (by simpa using some_)
    have same : scaled rs.reverse rest = scaled ds scale := by
      rw [shifted, ← scaled_append_zeros, ← whole]
      unfold scaled
      rw [value]
    have short : rs.reverse.length ≤ ds.length := by
      rw [whole, length_append] at shorter
      omega
    have frontDigits : AllDigits rs.reverse := fun c member =>
      all c (whole ▸ mem_append_left _ member)
    by_cases zeros : rs.reverse.all (· = '0') = true
    · have result : trimDecimal ds scale = (['0'], 0) := by
        unfold trimDecimal
        simp only [trailing, zeros, or_true, if_true, lt_irrefl, if_false]
      rw [result]
      refine ⟨⟨by decide, by decide, le_refl 0, .inl ⟨rfl, rfl⟩⟩, ?_, le_max_right _ _, ?_⟩
      · have nothing : digitsValue rs.reverse = 0 := by
          rw [eq_replicate_of_all zeros, ← nil_append (List.replicate _ _), digitsValue_append_zeros,
            digitsValue_nil, zero_mul]
        rw [scaled_zero, ← same, scaled, nothing, Nat.cast_zero, zero_mul]
      · have one := length_pos_of_ne_nil nonempty
        simp only [length_singleton]
        omega
    · have head : rs.reverse.head? ≠ some '0' := by
        rcases leading with lone | nonzero
        · exfalso
          apply zeros
          rw [lone] at whole
          rw [all_eq_true]
          intro c member
          have inside : c ∈ ['0'] := whole ▸ mem_append_left _ member
          simpa using inside
        · rw [whole, head?_append_of_ne_nil _ front] at nonzero
          exact nonzero
      have plain : trimDecimal ds scale = if rest < 0 then
          (rs.reverse ++ List.replicate (usizeOfI32 (i32 (-rest))) '0', 0) else (rs.reverse, rest) := by
        unfold trimDecimal
        simp only [trailing]
        rw [if_neg (not_or.mpr ⟨front, zeros⟩)]
      rw [plain]
      split_ifs with negative
      · have untouched : k = 0 := by
          by_contra more
          exact absurd (kept (Nat.pos_of_ne_zero more)) (not_le.mpr negative)
        have unscaled : rest = scale := by
          rw [shifted, untouched]
          simp
        have count : usizeOfI32 (i32 (-rest)) = (-scale).toNat := by
          rw [unscaled, i32_eq (by omega) (by omega), usizeOfI32_eq (by omega) (by omega)]
        rw [count]
        refine ⟨⟨?_, ?_, le_refl 0, .inr ?_⟩, ?_, le_max_right _ _, ?_⟩
        · intro c member
          rcases mem_append.mp member with early | zero
          · exact frontDigits c early
          · rw [eq_of_mem_replicate zero]
            rfl
        · simp [front]
        · rw [head?_append_of_ne_nil _ front]
          exact head
        · rw [scaled_append_zeros, ← same, unscaled]
          congr 1
          omega
        · rw [length_append, length_replicate]
          omega
      · refine ⟨⟨frontDigits, front, not_lt.mp negative, .inr head⟩, same, ?_, ?_⟩
        · rw [shifted]
          omega
        · exact short.trans (Nat.le_add_right _ _)

end

def place (q : ℚ) : ℚ ×ₗ ℕ := if q = 0 then toLex (1, 0) else toLex (q, 1)

theorem place_zero : place 0 = toLex (1, 0) := if_pos rfl

theorem place_of_ne {q : ℚ} (nonzero : q ≠ 0) : place q = toLex (q, 1) := if_neg nonzero

theorem place_zero_lt {q : ℚ} (above : 1 ≤ q) : place 0 < place q := by
  rw [place_zero, place_of_ne (by linarith), toLex_lt_toLex]
  rcases above.lt_or_eq with strictly | exactly
  · exact .inl strictly
  · exact .inr ⟨exactly, zero_lt_one⟩

variable {q r : ℚ}

theorem place_neg_lt (negative : q < 0) (nonneg : 0 ≤ r) : place q < place r := by
  rw [place_of_ne negative.ne]
  rcases nonneg.lt_or_eq with above | zero
  · rw [place_of_ne above.ne', toLex_lt_toLex]
    exact .inl (negative.trans above)
  · rw [← zero, place_zero, toLex_lt_toLex]
    exact .inl (by linarith)

theorem compare_place_of_ne (nonzero : q ≠ 0) (nonzeroOther : r ≠ 0) : compare (place q) (place r) = compare q r := by
  have increasing : StrictMono fun q : ℚ => toLex (q, 1) := fun _ _ less =>
    toLex_lt_toLex.mpr (.inl less)
  rw [place_of_ne nonzero, place_of_ne nonzeroOther]
  exact compare_map increasing q r

theorem compare_place_of_apart (apart : q = 0 → r ≤ 0 ∨ 1 ≤ r) (apartOther : r = 0 → q ≤ 0 ∨ 1 ≤ q) :
    compare (place q) (place r) = compare q r := by
  by_cases zero : q = 0
  · by_cases zeroOther : r = 0
    · rw [zero, zeroOther, compare_eq_iff_eq.mpr rfl, compare_eq_iff_eq.mpr rfl]
    · rcases apart zero with below | above
      · have negative : r < 0 := lt_of_le_of_ne below zeroOther
        rw [zero, compare_gt_iff_gt.mpr negative, compare_gt_iff_gt]
        exact place_neg_lt negative le_rfl
      · rw [zero, compare_lt_iff_lt.mpr (by linarith : (0 : ℚ) < r), compare_lt_iff_lt]
        exact place_zero_lt above
  · by_cases zeroOther : r = 0
    · rcases apartOther zeroOther with below | above
      · have negative : q < 0 := lt_of_le_of_ne below zero
        rw [zeroOther, compare_lt_iff_lt.mpr negative, compare_lt_iff_lt]
        exact place_neg_lt negative le_rfl
      · rw [zeroOther, compare_gt_iff_gt.mpr (by linarith : (0 : ℚ) < q), compare_gt_iff_gt]
        exact place_zero_lt above
    · exact compare_place_of_ne zero zeroOther

theorem compare_place_int (m n : Int) : compare (place m) (place n) = compare m n := by
  have apart (k : Int) : (k : ℚ) ≤ 0 ∨ 1 ≤ (k : ℚ) := by
    rcases le_or_gt k 0 with low | high
    · exact .inl (by exact_mod_cast low)
    · exact .inr (by exact_mod_cast high)
  rw [compare_place_of_apart (fun _ => apart n) fun _ => apart m]
  exact compare_map cast_strictMono m n

theorem compare_neg_neg (q r : ℚ) : compare (-q) (-r) = compare r q := by
  have decreasing : StrictAnti fun q : ℚ => -q := fun _ _ less => neg_lt_neg less
  rw [← cmp_eq_compare, decreasing.cmp_map_eq, cmp_eq_compare]

namespace ParsedDecimal

section

variable (d : ParsedDecimal)

def magnitude : ℚ := scaled d.digits d.scale

def value : ℚ := if d.negative then -d.magnitude else d.magnitude

def wholeDigits : Int := d.digits.length - d.scale

end

/-- What the parser returns as long as no `i32` overflows. -/
structure Normal (d : ParsedDecimal) : Prop where
  trimmed : Trimmed d.digits d.scale
  scale_lt : d.scale < 2 ^ 31
  length_lt : d.digits.length < 2 ^ 31
  sign : d.digits = ['0'] → d.negative = false

section

variable {d other : ParsedDecimal}

theorem Normal.zero_or_bounds (normal : d.Normal) : (d.magnitude = 0 ∧ d.wholeDigits = 1 ∧ d.negative = false) ∨
      ((10 : ℚ) ^ (d.wholeDigits - 1) ≤ d.magnitude ∧ d.magnitude < 10 ^ d.wholeDigits) := by
  rcases normal.trimmed.leading with ⟨zero, unscaled⟩ | nonzero
  · refine .inl ⟨?_, ?_, normal.sign zero⟩
    · rw [magnitude, zero, scaled_zero]
    · rw [wholeDigits, zero, unscaled]
      rfl
  · right
    have ten : (0 : ℚ) < 10 := by norm_num
    have high := digitsValue_lt normal.trimmed.digits
    have low : 10 ^ (d.digits.length - 1) ≤ digitsValue d.digits := by
      cases shape : d.digits with
      | nil => exact absurd shape normal.trimmed.nonempty
      | cons c rest =>
        rw [shape] at nonzero
        apply le_digitsValue (normal.trimmed.digits c (shape ▸ mem_cons_self))
        simpa using nonzero
    have positive := length_pos_of_ne_nil normal.trimmed.nonempty
    have power : 0 < (10 : ℚ) ^ (-d.scale) := zpow_pos ten _
    have split (n : Nat) : (10 : ℚ) ^ ((n : Int) - d.scale) = ((10 ^ n : Nat) : ℚ) * 10 ^ (-d.scale) := by
      rw [sub_eq_add_neg, zpow_add₀ ten.ne', zpow_natCast]
      push_cast
      rfl
    unfold magnitude scaled wholeDigits
    constructor
    · have shorter : (d.digits.length : Int) - d.scale - 1 = ((d.digits.length - 1 : Nat) : Int) - d.scale := by
        omega
      rw [shorter, split]
      exact mul_le_mul_of_nonneg_right (Nat.cast_le.mpr low) power.le
    · rw [split]
      exact mul_lt_mul_of_pos_right (Nat.cast_lt.mpr high) power

theorem Normal.place_lt (normal : d.Normal) (normalOther : other.Normal)
    (shorter : d.wholeDigits < other.wholeDigits) : place d.magnitude < place other.magnitude := by
  have one : (1 : ℚ) ≤ 10 := by norm_num
  have more : (1 : ℚ) < 10 := by norm_num
  rcases normal.zero_or_bounds with ⟨zero, whole, -⟩ | ⟨low, high⟩
  · rcases normalOther.zero_or_bounds with ⟨-, wholeOther, -⟩ | ⟨lowOther, -⟩
    · omega
    · have above : (1 : ℚ) < other.magnitude := by
        have bigger : (10 : ℚ) ^ (0 : Int) < 10 ^ (other.wholeDigits - 1) := zpow_lt_zpow_right₀ more (by omega)
        rw [zpow_zero] at bigger
        exact lt_of_lt_of_le bigger lowOther
      rw [zero, place_zero, place_of_ne (by linarith), toLex_lt_toLex]
      exact .inl above
  · have positive : 0 < d.magnitude := lt_of_lt_of_le (zpow_pos (by norm_num) _) low
    rcases normalOther.zero_or_bounds with ⟨zeroOther, wholeOther, -⟩ | ⟨lowOther, -⟩
    · have below : d.magnitude < 1 := by
        have smaller : (10 : ℚ) ^ d.wholeDigits ≤ 10 ^ (0 : Int) := zpow_le_zpow_right₀ one (by omega)
        rw [zpow_zero] at smaller
        exact lt_of_lt_of_le high smaller
      rw [zeroOther, place_zero, place_of_ne positive.ne', toLex_lt_toLex]
      exact .inl below
    · have between : (10 : ℚ) ^ d.wholeDigits ≤ 10 ^ (other.wholeDigits - 1) := zpow_le_zpow_right₀ one (by omega)
      have less : d.magnitude < other.magnitude := by linarith
      rw [place_of_ne positive.ne', place_of_ne (by linarith), toLex_lt_toLex]
      exact .inl less

theorem Normal.compare_place (normal : d.Normal) (normalOther : other.Normal)
    (same : d.wholeDigits = other.wholeDigits) :
    compare (place d.magnitude) (place other.magnitude) = compare d.magnitude other.magnitude := by
  have one : (1 : ℚ) = 10 ^ ((1 : Int) - 1) := by norm_num
  have above {e f : ParsedDecimal} (normal : e.Normal) (normalOther : f.Normal)
      (same : e.wholeDigits = f.wholeDigits) (zero : e.magnitude = 0) : f.magnitude ≤ 0 ∨ 1 ≤ f.magnitude := by
    rcases normal.zero_or_bounds with ⟨-, whole, -⟩ | ⟨low, -⟩
    · rcases normalOther.zero_or_bounds with ⟨zeroOther, -, -⟩ | ⟨low, -⟩
      · exact .inl zeroOther.le
      · rw [← same, whole, ← one] at low
        exact .inr low
    · have positive : 0 < e.magnitude := lt_of_lt_of_le (zpow_pos (by norm_num) _) low
      exact absurd zero positive.ne'
  exact compare_place_of_apart (above normal normalOther same) (above normalOther normal same.symm)

theorem compare_scaled (n m : Nat) (scale : Int) :
    compare n m = compare ((n : ℚ) * 10 ^ (-scale)) ((m : ℚ) * 10 ^ (-scale)) := by
  have power : 0 < (10 : ℚ) ^ (-scale) := zpow_pos (by norm_num) _
  have increasing : StrictMono fun n : Nat => (n : ℚ) * 10 ^ (-scale) := fun _ _ less =>
    mul_lt_mul_of_pos_right (Nat.cast_lt.mpr less) power
  exact (compare_map increasing n m).symm

section

variable (normal : d.Normal)
include normal

theorem Normal.padded_spec {scale : Nat} (enough : d.scale ≤ scale) :
    AllDigits (d.padded scale) ∧ ((d.padded scale).length : Int) = d.wholeDigits + scale ∧
      scaled (d.padded scale) scale = d.magnitude := by
  have nonneg := normal.trimmed.nonneg
  have short := normal.scale_lt
  have shift : usizeOfI32 (max d.scale 0) = d.scale.toNat := by
    rw [max_eq_left nonneg, usizeOfI32_eq nonneg short]
  unfold padded
  rw [shift]
  refine ⟨?_, ?_, ?_⟩
  · intro c member
    rcases mem_append.mp member with early | zero
    · exact normal.trimmed.digits c early
    · rw [eq_of_mem_replicate zero]
      rfl
  · rw [length_append, length_replicate, wholeDigits]
    omega
  · rw [scaled_append_zeros, magnitude]
    congr 1
    omega

theorem Normal.compare_padded (normalOther : other.Normal) (same : d.wholeDigits = other.wholeDigits) :
    compareChars (d.padded (max d.scale other.scale).toNat) (other.padded (max d.scale other.scale).toNat) =
      compare d.magnitude other.magnitude := by
  have enough : d.scale ≤ ((max d.scale other.scale).toNat : Int) := by omega
  have enoughOther : other.scale ≤ ((max d.scale other.scale).toNat : Int) := by omega
  obtain ⟨digits, length, number⟩ := normal.padded_spec enough
  obtain ⟨digitsOther, lengthOther, numberOther⟩ := normalOther.padded_spec enoughOther
  rw [compareChars_digits digits digitsOther (by omega), compare_scaled _ _ (max d.scale other.scale).toNat,
    ← number, ← numberOther]
  rfl

theorem Normal.i32_wholeDigits : i32 (i32 d.digits.length - d.scale) = d.wholeDigits := by
  have length := normal.length_lt
  have scale := normal.scale_lt
  have nonneg := normal.trimmed.nonneg
  have fits : i32 d.digits.length = d.digits.length := i32_eq (by omega) (by omega)
  rw [fits, i32_eq (by omega) (by omega), wholeDigits]

theorem Normal.usize_scale (normalOther : other.Normal) :
    usizeOfI32 (max (max d.scale other.scale) 0) = (max d.scale other.scale).toNat := by
  have scale := normal.scale_lt
  have scaleOther := normalOther.scale_lt
  have nonneg := normal.trimmed.nonneg
  rw [usizeOfI32_eq (by omega) (by omega)]
  omega

theorem Normal.cmpAbs_eq (normalOther : other.Normal) :
    d.cmpAbs other = compare (place d.magnitude) (place other.magnitude) := by
  simp only [cmpAbs, normal.i32_wholeDigits, normalOther.i32_wholeDigits, normal.usize_scale normalOther]
  rcases lt_trichotomy d.wholeDigits other.wholeDigits with less | equal | greater
  · rw [compare_lt_iff_lt.mpr less, lt_then, compare_lt_iff_lt.mpr (normal.place_lt normalOther less)]
  · rw [compare_eq_iff_eq.mpr equal, eq_then, normal.compare_padded normalOther equal,
      normal.compare_place normalOther equal]
  · rw [compare_gt_iff_gt.mpr greater, gt_then, compare_gt_iff_gt.mpr (normalOther.place_lt normal greater)]

theorem Normal.magnitude_nonneg : 0 ≤ d.magnitude := by
  rcases normal.zero_or_bounds with ⟨zero, -, -⟩ | ⟨low, -⟩
  · exact zero.ge
  · exact (lt_of_lt_of_le (zpow_pos (by norm_num) _) low).le

theorem Normal.value_neg (negative : d.negative = true) : 0 < d.magnitude ∧ d.value = -d.magnitude := by
  refine ⟨?_, if_pos negative⟩
  rcases normal.zero_or_bounds with ⟨-, -, positive⟩ | ⟨low, -⟩
  · rw [positive] at negative
    cases negative
  · exact lt_of_lt_of_le (zpow_pos (by norm_num) _) low

end

theorem value_of_positive (positive : d.negative = false) : d.value = d.magnitude := if_neg (by rw [positive]; decide)

theorem Normal.cmp_eq (normal : d.Normal) (normalOther : other.Normal) :
    d.cmp other = compare (place d.value) (place other.value) := by
  unfold cmp
  cases sign : d.negative with
  | true =>
    obtain ⟨above, value⟩ := normal.value_neg sign
    cases signOther : other.negative with
    | true =>
      obtain ⟨aboveOther, valueOther⟩ := normalOther.value_neg signOther
      rw [normalOther.cmpAbs_eq normal, value, valueOther, compare_place_of_ne aboveOther.ne' above.ne',
        compare_place_of_ne (by linarith) (by linarith), compare_neg_neg]
    | false =>
      have least : d.value < 0 := by linarith
      have nonneg : 0 ≤ other.value := value_of_positive signOther ▸ normalOther.magnitude_nonneg
      exact (compare_lt_iff_lt.mpr (place_neg_lt least nonneg)).symm
  | false =>
    have nonneg : 0 ≤ d.value := value_of_positive sign ▸ normal.magnitude_nonneg
    cases signOther : other.negative with
    | true =>
      obtain ⟨aboveOther, valueOther⟩ := normalOther.value_neg signOther
      have least : other.value < 0 := by linarith
      exact (compare_gt_iff_gt.mpr (place_neg_lt least nonneg)).symm
    | false =>
      rw [normal.cmpAbs_eq normalOther, value_of_positive sign, value_of_positive signOther]

end

theorem cmpAbs_swap (d other : ParsedDecimal) : other.cmpAbs d = (d.cmpAbs other).swap := by
  simp only [cmpAbs]
  rw [swap_then, max_comm other.scale d.scale, ← eq_swap, ← eq_swap]

theorem cmp_swap (d other : ParsedDecimal) : other.cmp d = (d.cmp other).swap := by
  unfold cmp
  cases d.negative <;> cases other.negative
  · exact cmpAbs_swap d other
  · rfl
  · rfl
  · exact cmpAbs_swap other d

section

variable {whole fraction : List Char}

theorem ofParts_spec (negative : Bool) (exponent : Int) (digits : AllDigits whole) (digitsAfter : AllDigits fraction)
    (nonempty : whole ++ fraction ≠ [])
    (small : whole.length + fraction.length + exponent.natAbs < 2 ^ 31) :
    (ofParts negative whole fraction exponent).Normal ∧ (ofParts negative whole fraction exponent).value =
        (if negative then -1 else 1) * scaled (whole ++ fraction) (fraction.length - exponent) := by
  have scale : i32 (i32 fraction.length - exponent) = fraction.length - exponent := by
    rw [i32_eq (n := fraction.length) (by omega) (by omega), i32_eq (by omega) (by omega)]
  have all : AllDigits (whole ++ fraction) := fun c member =>
    (mem_append.mp member).elim (digits c) (digitsAfter c)
  obtain ⟨trimmed, number, bound, length⟩ := trimDecimal_spec all nonempty
    (by omega : -2 ^ 31 < (fraction.length : Int) - exponent)
  rw [length_append] at length
  unfold ofParts
  rw [scale]
  cases result : trimDecimal (whole ++ fraction) (fraction.length - exponent) with
  | mk ds rest =>
    rw [result] at trimmed number bound length
    simp only at trimmed number bound length ⊢
    have scaleLt : rest < 2 ^ 31 := by omega
    have lengthLt : ds.length < 2 ^ 31 := by omega
    refine ⟨⟨trimmed, scaleLt, lengthLt, fun zero => by simp [show ds = ['0'] from zero]⟩, ?_⟩
    by_cases zero : ds = ['0']
    · have nothing : scaled ds rest = 0 := by rw [zero, scaled_zero]
      rw [← number, value, magnitude, nothing, neg_zero, mul_zero, ite_self]
    · rw [← number, value, magnitude]
      cases negative <;> simp [zero]

/-- The text is short enough for the `i32` arithmetic of the parser. -/
def Fits (text : List Char) : Prop :=
  (splitExponent (splitSign (trim text)).2).all
    (fun (base, exponent) => base.length + exponent.natAbs < 2 ^ 31) = true

instance (text : List Char) : Decidable (Fits text) := instDecidableEqBool _ _

theorem length_splitDecimalBase {base : List Char} (split : splitDecimalBase base = some (whole, fraction)) :
    whole.length + fraction.length ≤ base.length := by
  unfold splitDecimalBase at split
  rw [span_eq_takeWhile_dropWhile] at split
  have parts := congrArg List.length (takeWhile_append_dropWhile (p := (· ≠ '.')) (l := base))
  rw [length_append] at parts
  split at split
  · cases split
    simp
  · next front c after same =>
    obtain ⟨rfl, tail⟩ := Prod.mk.inj same
    split_ifs at split
    cases split
    rw [tail, length_cons] at parts
    omega

theorem parse_normal {text : List Char} {d : ParsedDecimal} (fits : Fits text) (parsed : parse text = some d) :
    d.Normal := by
  unfold parse at parsed
  unfold Fits at fits
  cases sign : splitSign (trim text) with
  | mk negative rest =>
    rw [sign] at parsed fits
    simp only [Option.bind_eq_bind, Option.bind_eq_some_iff] at parsed
    obtain ⟨⟨base, exponent⟩, power, ⟨whole, fraction⟩, split, made⟩ := parsed
    rw [power] at fits
    simp only [Option.all_some, decide_eq_true_eq] at fits
    split_ifs at made with blank malformed
    obtain ⟨digits, digitsAfter⟩ := not_or.mp malformed
    rw [not_not] at digits digitsAfter
    have short := length_splitDecimalBase split
    have nonempty : whole ++ fraction ≠ [] := fun nothing => blank (append_eq_nil_iff.mp nothing)
    have small : whole.length + fraction.length + exponent.natAbs < 2 ^ 31 :=
      lt_of_le_of_lt (Nat.add_le_add_right short _) fits
    obtain ⟨normal, -⟩ := ofParts_spec negative exponent digits digitsAfter nonempty small
    rw [← Option.some.inj made]
    exact normal

end

section

def Plain (c : Char) : Prop := c.isDigit = true ∨ c = '-' ∨ c = '.'

variable {c : Char}

theorem Plain.not_whitespace (plain : Plain c) : isWhitespace c = false := by
  rcases plain with digit | rfl | rfl
  · have bounds := isDigit_bounds digit
    simp only [isWhitespace, Bool.or_eq_false_iff, decide_eq_false_iff_not, beq_eq_false_iff_ne]
    omega
  · decide
  · decide

theorem isDigit_ne {d : Char} (digit : c.isDigit = true) (other : d.isDigit = false) : c ≠ d := by
  rintro rfl
  rw [digit] at other
  cases other

theorem Plain.not_exponent (plain : Plain c) : c ≠ 'e' ∧ c ≠ 'E' := by
  rcases plain with digit | rfl | rfl
  · exact ⟨isDigit_ne digit (by decide), isDigit_ne digit (by decide)⟩
  · decide
  · decide

variable {s : List Char}

theorem trim_eq_self (plain : ∀ c ∈ s, Plain c) : trim s = s := by
  have kept {l : List Char} (inside : ∀ c ∈ l, Plain c) : l.dropWhile isWhitespace = l := by
    cases l with
    | nil => rfl
    | cons c rest => rw [dropWhile_cons_of_neg (by simp [(inside c mem_cons_self).not_whitespace])]
  unfold trim
  rw [kept plain, kept fun c member => plain c (mem_reverse.mp member), reverse_reverse]

theorem splitExponent_plain (plain : ∀ c ∈ s, Plain c) : splitExponent s = some (s, 0) := by
  have none_ : s.dropWhile (fun c => c ≠ 'e' ∧ c ≠ 'E') = [] := by
    rw [dropWhile_eq_nil_iff]
    intro c member
    simpa using (plain c member).not_exponent
  unfold splitExponent
  rw [span_eq_takeWhile_dropWhile, none_]

theorem splitSign_digits (rest : List Char) (digits : AllDigits s) (nonempty : s ≠ []) :
    splitSign (s ++ rest) = (false, s ++ rest) := by
  cases s with
  | nil => exact absurd rfl nonempty
  | cons c s =>
    have digit := digits c mem_cons_self
    have minus : c ≠ '-' := isDigit_ne digit (by decide)
    have plus : c ≠ '+' := isDigit_ne digit (by decide)
    rw [cons_append]
    unfold splitSign
    split
    · next same => exact absurd (List.cons.inj same).1 minus
    · next same => exact absurd (List.cons.inj same).1 plus
    · rfl

variable {whole : List Char}

theorem splitDecimalBase_whole (digits : AllDigits whole) : splitDecimalBase whole = some (whole, []) := by
  have none_ : whole.dropWhile (· ≠ '.') = [] := by
    rw [dropWhile_eq_nil_iff]
    intro c member
    simpa using isDigit_ne (digits c member) (by decide : '.'.isDigit = false)
  unfold splitDecimalBase
  rw [span_eq_takeWhile_dropWhile, none_]

theorem splitDecimalBase_point {fraction : List Char} (digits : AllDigits whole) (digitsAfter : AllDigits fraction) :
    splitDecimalBase (whole ++ '.' :: fraction) = some (whole, fraction) := by
  have before : ∀ c ∈ whole, decide (c ≠ '.') = true := fun c member =>
    decide_eq_true (isDigit_ne (digits c member) (by decide))
  have after : '.' ∉ fraction := fun member =>
    absurd (digitsAfter '.' member) (by decide)
  unfold splitDecimalBase
  rw [span_eq_takeWhile_dropWhile, takeWhile_append_of_pos before, dropWhile_append_of_pos before]
  simp [after]

theorem parse_printed {fraction tail : List Char} (negative : Bool) (digits : AllDigits whole)
    (digitsAfter : AllDigits fraction) (nonempty : whole ≠ []) (plain : ∀ c ∈ tail, Plain c)
    (split : splitDecimalBase (whole ++ tail) = some (whole, fraction)) :
    parse ((if negative then ['-'] else []) ++ (whole ++ tail)) = some (ofParts negative whole fraction 0) := by
  have base : ∀ c ∈ whole ++ tail, Plain c := fun c member =>
    (mem_append.mp member).elim (fun early => .inl (digits c early)) (plain c)
  have sign : ∀ c ∈ (if negative then ['-'] else []) ++ (whole ++ tail), Plain c := by
    intro c member
    rcases mem_append.mp member with first | later
    · cases negative with
      | true => exact .inr (.inl (mem_singleton.mp first))
      | false => cases first
    · exact base c later
  have signed : splitSign ((if negative then ['-'] else []) ++ (whole ++ tail)) = (negative, whole ++ tail) := by
    cases negative with
    | true => rfl
    | false => exact splitSign_digits tail digits nonempty
  unfold parse
  rw [trim_eq_self sign, signed]
  simp only [splitExponent_plain base, split, Option.bind_eq_bind, Option.bind_some]
  rw [if_neg fun blank => nonempty blank.1, if_neg]
  rintro (bad | bad)
  · exact bad digits
  · exact bad digitsAfter

theorem parse_integerText {n : Int} (bounded : n.natAbs < 10 ^ 20) :
    ∃ d, parse (integerText n) = some d ∧ d.Normal ∧ d.value = n := by
  obtain ⟨digits, value, nonempty⟩ := decimalDigits_spec n.natAbs
  have short := length_decimalDigits_le (by decide) bounded
  have nothing : AllDigits [] := by simp [AllDigits]
  have split : splitDecimalBase (decimalDigits n.natAbs ++ []) = some (decimalDigits n.natAbs, []) := by
    rw [append_nil, splitDecimalBase_whole digits]
  have parsed := parse_printed (decide (n < 0)) digits nothing nonempty (by simp) split
  rw [append_nil] at parsed
  obtain ⟨normal, number⟩ := ofParts_spec (decide (n < 0)) 0 digits nothing (by simpa using nonempty) (by simp; omega)
  refine ⟨_, ?_, normal, ?_⟩
  · unfold integerText
    simpa using parsed
  · rw [number, append_nil, scaled, value]
    simp only [length_nil, Nat.cast_zero, sub_zero, neg_zero, zpow_zero, mul_one, decide_eq_true_eq]
    split_ifs with negative
    · rw [neg_one_mul, Nat.cast_natAbs, abs_of_neg negative, cast_neg, neg_neg]
    · rw [one_mul, Nat.cast_natAbs, abs_of_nonneg (not_lt.mp negative)]

theorem parse_formatScaledI64 {n : Int} (bounded : n.natAbs < 10 ^ 20) :
    ∃ d, parse (formatScaledI64 n 4) = some d ∧ d.Normal ∧ d.value = n / 10 ^ 4 := by
  obtain ⟨digits, value, nonempty⟩ := decimalDigits_spec (n.natAbs / 10 ^ 4)
  obtain ⟨digitsFrac, valueFrac, -⟩ := decimalDigits_spec (n.natAbs % 10 ^ 4)
  have short := length_decimalDigits_le (n := n.natAbs / 10 ^ 4) (k := 20) (by decide) (by omega)
  have shortFrac := length_decimalDigits_le (n := n.natAbs % 10 ^ 4) (k := 4) (by decide) (Nat.mod_lt _ (by decide))
  generalize fraction_eq : List.replicate (4 - (decimalDigits (n.natAbs % 10 ^ 4)).length) '0' ++
    decimalDigits (n.natAbs % 10 ^ 4) = fraction
  have four : fraction.length = 4 := by
    rw [← fraction_eq, length_append, length_replicate]
    omega
  have digitsAfter : AllDigits fraction := by
    intro c member
    rw [← fraction_eq] at member
    rcases mem_append.mp member with zero | later
    · rw [eq_of_mem_replicate zero]
      rfl
    · exact digitsFrac c later
  have valueAfter : digitsValue fraction = n.natAbs % 10 ^ 4 := by
    have zeros := digitsValue_append_zeros [] (4 - (decimalDigits (n.natAbs % 10 ^ 4)).length)
    rw [nil_append, digitsValue_nil, zero_mul] at zeros
    rw [← fraction_eq, digitsValue_append, zeros, valueFrac, zero_mul, zero_add]
  have plain : ∀ c ∈ '.' :: fraction, Plain c := by
    intro c member
    rcases mem_cons.mp member with rfl | later
    · exact .inr (.inr rfl)
    · exact .inl (digitsAfter c later)
  have parsed := parse_printed (decide (n < 0)) digits digitsAfter nonempty plain
    (splitDecimalBase_point digits digitsAfter)
  obtain ⟨normal, number⟩ := ofParts_spec (decide (n < 0)) 0 digits digitsAfter
    (append_ne_nil_of_left_ne_nil nonempty _) (by simp only [natAbs_zero]; omega)
  refine ⟨_, ?_, normal, ?_⟩
  · unfold formatScaledI64
    rw [append_assoc, fraction_eq]
    simpa using parsed
  · have whole : digitsValue (decimalDigits (n.natAbs / 10 ^ 4) ++ fraction) = n.natAbs := by
      rw [digitsValue_append, value, valueAfter, four]
      exact Nat.div_add_mod' _ _
    rw [number, scaled, whole, four]
    simp only [decide_eq_true_eq]
    split_ifs with negative
    · rw [Nat.cast_natAbs, abs_of_neg negative]
      norm_num
      ring
    · rw [Nat.cast_natAbs, abs_of_nonneg (not_lt.mp negative)]
      norm_num
      ring

end

end ParsedDecimal

theorem compareDecimalText_swap (left right : List Char) :
    compareDecimalText right left = (compareDecimalText left right).map Ordering.swap := by
  unfold compareDecimalText
  cases ParsedDecimal.parse left <;> cases ParsedDecimal.parse right
  · rfl
  · rfl
  · rfl
  · exact congrArg some (ParsedDecimal.cmp_swap _ _)

end RedDB.Types
