import RedDB.Types.ValueOrder

namespace RedDB.Types

open List Library ParsedDecimal Option

structure DecimalParts where
  negative : Bool
  whole : List Char
  fraction : List Char
  exponent : Int
  deriving DecidableEq

def decimalParts (text : List Char) : Option DecimalParts := do
  let (negative, s) := splitSign (trim text)
  let (base, exponent) ← splitExponent s
  let (whole, fraction) ← splitDecimalBase base
  if whole = [] ∧ fraction = [] then none
  else if ¬ AllDigits whole ∨ ¬ AllDigits fraction then none
  else some ⟨negative, whole, fraction, exponent⟩

def DecimalParts.number (parts : DecimalParts) : ℚ :=
  (if parts.negative then -1 else 1) * digitsValue (parts.whole ++ parts.fraction) *
    10 ^ (parts.exponent - parts.fraction.length)

namespace Value

def denoted : Value → Option ℚ
  | .integer n => some n.toInt
  | .unsignedInteger n => some n.toNat
  | .decimal n => some (n.toInt / 10 ^ 4)
  | .decimalText s => (decimalParts s.toList).map DecimalParts.number
  | _ => none

/-- The literal, if there is one, is short enough for the `i32` arithmetic. -/
def LiteralFits (v : Value) : Prop := ∀ s ∈ v.literal, ParsedDecimal.Fits s.toList

end Value

/-- The exact results of the `i32` operations of `parse` and `trim_decimal`. -/
def parseResults (text : List Char) : List Int :=
  match decimalParts text with
  | some parts =>
    let scale : Int := parts.fraction.length - parts.exponent
    [(parts.fraction.length : Int), scale, -min scale 0]
  | none => []

/-- The exact results of the `i32` operations of `cmp_abs`. -/
def compareResults (text : List Char) : List Int :=
  match parse text with
  | some d => [(d.digits.length : Int), d.digits.length - d.scale]
  | none => []

/-- The exact results of all `i32` operations of a comparison. -/
def arithmeticResults (left right : List Char) : List Int :=
  parseResults left ++ parseResults right ++ compareResults left ++ compareResults right

def InI32 (n : Int) : Prop := -2 ^ 31 ≤ n ∧ n < 2 ^ 31

section

variable {text : List Char} {parts : DecimalParts}

theorem parse_eq (text : List Char) : parse text = (decimalParts text).map fun parts =>
      ofParts parts.negative parts.whole parts.fraction parts.exponent := by
  unfold parse decimalParts
  cases splitSign (trim text) with
  | mk negative s =>
    cases power : splitExponent s with
    | none => simp [power]
    | some split =>
      cases base : splitDecimalBase split.1 with
      | none => simp [power, base]
      | some whole =>
        simp only [power, base, bind_eq_bind, bind_some]
        split_ifs <;> rfl

section

variable (accepted : decimalParts text = some parts) (fits : ParsedDecimal.Fits text)
include accepted fits

theorem decimalParts_spec : AllDigits parts.whole ∧ AllDigits parts.fraction ∧ parts.whole ++ parts.fraction ≠ [] ∧
      parts.whole.length + parts.fraction.length + parts.exponent.natAbs < 2 ^ 31 := by
  unfold decimalParts at accepted
  unfold ParsedDecimal.Fits at fits
  cases sign : splitSign (trim text) with
  | mk negative rest =>
    rw [sign] at accepted fits
    simp only [bind_eq_bind, bind_eq_some_iff] at accepted
    obtain ⟨⟨base, exponent⟩, power, ⟨whole, fraction⟩, split, made⟩ := accepted
    rw [power] at fits
    simp only [all_some, decide_eq_true_eq] at fits
    split_ifs at made with blank malformed
    obtain ⟨digits, digitsAfter⟩ := not_or.mp malformed
    rw [not_not] at digits digitsAfter
    have short := length_splitDecimalBase split
    rw [← Option.some.inj made]
    exact ⟨digits, digitsAfter, fun nothing => blank (append_eq_nil_iff.mp nothing),
      lt_of_le_of_lt (Nat.add_le_add_right short _) fits⟩

theorem parse_of_parts : ∃ d, parse text = some d ∧ d.Normal ∧ d.value = parts.number := by
  obtain ⟨digits, digitsAfter, nonempty, small⟩ := decimalParts_spec accepted fits
  obtain ⟨normal, value⟩ := ofParts_spec parts.negative parts.exponent digits digitsAfter nonempty small
  refine ⟨_, by rw [parse_eq, accepted]; rfl, normal, ?_⟩
  rw [value, scaled, neg_sub, ← mul_assoc]
  rfl

end

theorem parseResults_inI32 (fits : ParsedDecimal.Fits text) : ∀ n ∈ parseResults text, InI32 n := by
  unfold parseResults
  cases accepted : decimalParts text with
  | none => simp
  | some parts =>
    obtain ⟨-, -, -, small⟩ := decimalParts_spec accepted fits
    simp only [mem_cons, not_mem_nil, or_false, InI32]
    rintro n (rfl | rfl | rfl) <;> omega

theorem compareResults_inI32 (fits : ParsedDecimal.Fits text) : ∀ n ∈ compareResults text, InI32 n := by
  unfold compareResults
  cases parsed : parse text with
  | none => simp
  | some d =>
    have normal := parse_normal fits parsed
    have scale := normal.scale_lt
    have length := normal.length_lt
    have nonneg := normal.trimmed.nonneg
    simp only [mem_cons, not_mem_nil, or_false, InI32]
    rintro n (rfl | rfl) <;> omega

theorem fits_of_plain (plain : ∀ c ∈ text, ParsedDecimal.Plain c) (short : text.length < 2 ^ 31) :
    ParsedDecimal.Fits text := by
  have suffix : (splitSign text).2 <:+ text := by
    unfold splitSign
    split
    · exact suffix_cons _ _
    · exact suffix_cons _ _
    · exact suffix_rfl
  have base : ∀ c ∈ (splitSign text).2, ParsedDecimal.Plain c := fun c member =>
    plain c (suffix.mem member)
  have length := suffix.length_le
  rw [ParsedDecimal.Fits, trim_eq_self plain, splitExponent_plain base]
  simp only [all_some, Int.natAbs_zero, add_zero, decide_eq_true_eq]
  omega

theorem plain_decimalDigits (n : Nat) : ∀ c ∈ decimalDigits n, ParsedDecimal.Plain c := fun c member =>
  .inl ((decimalDigits_spec n).1 c member)

theorem fits_integerText {n : Int} (bounded : n.natAbs < 10 ^ 20) : ParsedDecimal.Fits (integerText n) := by
  have short := length_decimalDigits_le (by decide) bounded
  apply fits_of_plain
  · intro c member
    rcases mem_append.mp member with sign | digit
    · split_ifs at sign
      · exact .inr (.inl (mem_singleton.mp sign))
      · cases sign
    · exact plain_decimalDigits _ c digit
  · rw [integerText, length_append]
    split_ifs <;> simp <;> omega

theorem fits_formatScaledI64 {n : Int} (bounded : n.natAbs < 10 ^ 20) : ParsedDecimal.Fits (formatScaledI64 n 4) := by
  have short := length_decimalDigits_le (n := n.natAbs / 10 ^ 4) (k := 20) (by decide) (by omega)
  have shortFrac := length_decimalDigits_le (n := n.natAbs % 10 ^ 4) (k := 4) (by decide) (Nat.mod_lt _ (by decide))
  apply fits_of_plain
  · intro c member
    simp only [formatScaledI64, mem_append, mem_cons] at member
    rcases member with (sign | digit) | rfl | zero | digit
    · split_ifs at sign
      · exact .inr (.inl (mem_singleton.mp sign))
      · cases sign
    · exact plain_decimalDigits _ c digit
    · exact .inr (.inr rfl)
    · rw [eq_of_mem_replicate zero]
      exact .inl rfl
    · exact plain_decimalDigits _ c digit
  · simp only [formatScaledI64, length_append, length_cons, length_replicate]
    have sign : (if n < 0 then ['-'] else []).length ≤ 1 := by split_ifs <;> simp
    omega

end

section

variable (f64 : FloatOps) {a b : Value} {p q : ℚ}

theorem denoted_spec (denotes : a.denoted = some p) (fits : a.LiteralFits) :
    a.isNumeric = true ∧ Readable a ∧ number a = p := by
  have plain {v : Value} (none_ : v.literal = none) : Readable v := fun s held => by
    rw [none_] at held
    cases held
  cases a
  case integer n => exact ⟨rfl, plain rfl, Option.some.inj denotes⟩
  case unsignedInteger n => exact ⟨rfl, plain rfl, Option.some.inj denotes⟩
  case decimal n => exact ⟨rfl, plain rfl, Option.some.inj denotes⟩
  case decimalText s =>
    obtain ⟨parts, accepted, value⟩ := map_eq_some_iff.mp denotes
    obtain ⟨d, parsed, -, number_eq⟩ := parse_of_parts accepted (fits s rfl)
    refine ⟨rfl, fun t held => ?_, ?_⟩
    · cases held
      exact ⟨by rw [parsed]; rfl, fits s rfl⟩
    · rw [number, parsed, map_some, getD_some, number_eq, value]
  all_goals cases denotes

theorem numericValueText_fits {text : List Char} (denotes : a.denoted = some p) (fits : a.LiteralFits)
    (printed : numericValueText f64 a = some text) : ParsedDecimal.Fits text := by
  cases a
  case integer n =>
    cases printed
    exact fits_integerText (natAbs_toInt_lt n)
  case unsignedInteger n =>
    cases printed
    have bounded : (n.toNat : Int).natAbs < 10 ^ 20 := by
      have := n.isLt
      omega
    exact fits_integerText bounded
  case decimal n =>
    cases printed
    exact fits_formatScaledI64 (natAbs_toInt_lt n)
  case decimalText s =>
    cases printed
    exact fits s rfl
  all_goals cases denotes

/-- The two are neither both integers nor both scaled decimals, so that their texts are compared. -/
def Value.MeetsAsText (a b : Value) : Prop :=
  (a.integerValue = none ∨ b.integerValue = none) ∧ (a.decimalUnits = none ∨ b.decimalUnits = none)

/-- One is zero and the other lies strictly between zero and one. -/
def ZeroMeetsFraction (p q : ℚ) : Prop := p = 0 ∧ 0 < q ∧ q < 1 ∨ q = 0 ∧ 0 < p ∧ p < 1

theorem compare_place_iff : compare (place p) (place q) = compare p q ↔ ¬ ZeroMeetsFraction p q := by
  have fraction {r : ℚ} (above : 0 < r) (below : r < 1) : place r < place 0 := by
    rw [place_zero, place_of_ne above.ne', Prod.Lex.toLex_lt_toLex]
    exact .inl below
  constructor
  · rintro same (⟨rfl, above, below⟩ | ⟨rfl, above, below⟩)
    · rw [compare_lt_iff_lt.mpr above, compare_lt_iff_lt] at same
      exact lt_asymm same (fraction above below)
    · rw [compare_gt_iff_gt.mpr above, compare_gt_iff_gt] at same
      exact lt_asymm same (fraction above below)
  · intro apart
    have outside {r : ℚ} (far : ¬ (0 < r ∧ r < 1)) : r ≤ 0 ∨ 1 ≤ r := by
      rcases le_or_gt r 0 with low | above
      · exact .inl low
      · exact .inr (not_lt.mp fun below => far ⟨above, below⟩)
    obtain ⟨first, second⟩ := not_or.mp apart
    exact compare_place_of_apart (fun zero => outside fun within => first ⟨zero, within⟩)
      fun zero => outside fun within => second ⟨zero, within⟩

theorem partialCompareValues_exact (numeric : a.isNumeric = true) (numericOther : b.isNumeric = true)
    (readable : Readable a) (readableOther : Readable b) :
    partialCompareValues f64 a b = some (compare (number a) (number b)) ↔
      a.MeetsAsText b → ¬ ZeroMeetsFraction (number a) (number b) := by
  have byText := compareDecimalText_eq f64 numeric numericOther readable readableOther
  rcases numbers_cases a b with ⟨m, n, units, unitsOther⟩ | ⟨m, n, integer, integerOther⟩ | ⟨integers, decimals⟩
  · refine iff_of_true (partialCompareValues_decimal f64 units unitsOther).1 ?_
    rintro ⟨-, none | none⟩
    · cases units.symm.trans none
    · cases unitsOther.symm.trans none
  · obtain ⟨compared, value, valueOther⟩ := partialCompareValues_integer f64 integer integerOther
    refine iff_of_true (by rw [compared, value, valueOther, compare_map Int.cast_strictMono m n]) ?_
    rintro ⟨none | none, -⟩
    · cases integer.symm.trans none
    · cases integerOther.symm.trans none
  · rw [partialCompareValues_by_text f64 numeric numericOther integers decimals, byText, Option.some.injEq,
      compare_place_iff]
    exact ⟨fun apart _ => apart, fun apart => apart ⟨integers, decimals⟩⟩

/-- As long as the exponents and lengths of literals fit `i32`, numbers are compared by what they denote exactly if
    not the texts of zero and of a number strictly between zero and one are compared. -/
theorem decimalComparison_exact (denotes : a.denoted = some p) (denotesOther : b.denoted = some q)
    (fits : a.LiteralFits) (fitsOther : b.LiteralFits) :
    (partialCompareValues f64 a b = some (compare p q) ↔ (a.MeetsAsText b → ¬ ZeroMeetsFraction p q)) ∧
      ∀ left ∈ numericValueText f64 a, ∀ right ∈ numericValueText f64 b,
        ∀ n ∈ arithmeticResults left right, InI32 n := by
  obtain ⟨numeric, readable, value⟩ := denoted_spec denotes fits
  obtain ⟨numericOther, readableOther, valueOther⟩ := denoted_spec denotesOther fitsOther
  refine ⟨?_, ?_⟩
  · rw [← value, ← valueOther]
    exact partialCompareValues_exact f64 numeric numericOther readable readableOther
  · intro left printed right printedOther n member
    have short := numericValueText_fits f64 denotes fits printed
    have shortOther := numericValueText_fits f64 denotesOther fitsOther printedOther
    simp only [arithmeticResults, mem_append] at member
    rcases member with ((first | second) | first) | second
    · exact parseResults_inI32 short n first
    · exact parseResults_inI32 shortOther n second
    · exact compareResults_inI32 short n first
    · exact compareResults_inI32 shortOther n second

end

theorem decimalComparison_exact_literals :
    partialCompareValues default (.decimalText "-1.50e2") (.decimal 5000) = some (compare (-150 : ℚ) (1 / 2)) := by
  have left : decimalParts "-1.50e2".toList = some ⟨true, ['1'], ['5', '0'], 2⟩ := by decide
  have first : Value.denoted (.decimalText "-1.50e2") = some (-150) := by
    have digits : digitsValue ['1', '5', '0'] = 150 := by decide
    rw [Value.denoted, left, map_some, DecimalParts.number]
    simp [digits]
  have second : Value.denoted (.decimal 5000) = some (1 / 2) := by
    have units : (5000 : BitVec 64).toInt = 5000 := by decide
    rw [Value.denoted, units]
    norm_num
  refine (decimalComparison_exact default first second ?_ ?_).1.mpr fun _ => ?_
  · intro s held
    cases held
    decide
  · intro s held
    cases held
  · unfold ZeroMeetsFraction
    norm_num

/-- Zero is written with one digit before the point, so that it stands above every proper fraction, and the
    scale of the smallest exponent does not fit. -/
theorem compareDecimalText_not_exact : compareDecimalText "0".toList "0.5".toList = some .gt ∧
      Value.denoted (.decimalText "0") = some 0 ∧ Value.denoted (.decimalText "0.5") = some (1 / 2) ∧
      (decimalParts "1e-2147483648".toList).isSome = true ∧
      ∃ n ∈ arithmeticResults "1e-2147483648".toList "1".toList, ¬ InI32 n := by
  have zero : decimalParts "0".toList = some ⟨false, ['0'], [], 0⟩ := by decide
  have half : decimalParts "0.5".toList = some ⟨false, ['0'], ['5'], 0⟩ := by decide
  have small : decimalParts "1e-2147483648".toList = some ⟨false, ['1'], [], -2147483648⟩ := by decide +kernel
  refine ⟨by decide +kernel, ?_, ?_, by rw [small]; rfl, 2147483648, ?_, by unfold InI32; omega⟩
  · rw [Value.denoted, zero, map_some, DecimalParts.number]
    simp [digitsValue]
  · have digits : digitsValue ['0', '5'] = 5 := by decide
    rw [Value.denoted, half, map_some, DecimalParts.number]
    simp [digits]
    norm_num
  · simp only [arithmeticResults, parseResults, small, mem_append, mem_cons]
    exact .inl (.inl (.inl (.inr (.inl rfl))))

end RedDB.Types
