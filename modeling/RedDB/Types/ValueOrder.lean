import RedDB.Library.Preorder
import RedDB.Types.DecimalSpec
import RedDB.Types.ValueCompare

namespace RedDB.Types

open Library Ordering ParsedDecimal Option Std.OrientedCmp Int

namespace Value

mutual

def floatFree : Value → Bool
  | .float _ => false
  | .vector _ => false
  | .array elements => floatFreeAll elements
  | _ => true

def floatFreeAll : List Value → Bool
  | [] => true
  | v :: rest => v.floatFree && floatFreeAll rest

end

def isNumeric : Value → Bool
  | .integer _ => true
  | .unsignedInteger _ => true
  | .decimal _ => true
  | .decimalText _ => true
  | _ => false

def decimalUnits : Value → Option Int
  | .decimal n => some n.toInt
  | _ => none

def literal : Value → Option String
  | .decimalText s => some s
  | _ => none

def integerValue : Value → Option Int
  | .integer n => some n.toInt
  | .unsignedInteger n => some n.toNat
  | _ => none

end Value

section

variable {f64 : FloatOps} {a b : Value}

def typeOrder (a b : Value) : Option Ordering :=
  match a, b with
  | .null, .null => some .eq
  | .text a, .text b => some (compareBytes (asBytes a) (asBytes b))
  | .boolean a, .boolean b => some (compare a b)
  | .timestamp a, .timestamp b => some (compare a.toInt b.toInt)
  | .duration a, .duration b => some (compare a.toInt b.toInt)
  | .blob a, .blob b => some (compareBytes a b)
  | .uuid a, .uuid b => some (compareBytes a.1 b.1)
  | _, _ => none

theorem numericValueText_eq_none (plain : a.floatFree = true) (word : a.isNumeric = false) :
    numericValueText f64 a = none := by
  cases a <;> first | rfl | (cases plain; done) | contradiction

theorem typeOrder_numeric_left (numeric : a.isNumeric = true) (b : Value) : typeOrder a b = none := by
  unfold typeOrder
  split <;> first | rfl | cases numeric

theorem typeOrder_numeric_right (a : Value) (numeric : b.isNumeric = true) : typeOrder a b = none := by
  unfold typeOrder
  split <;> first | rfl | cases numeric

theorem typeOrder_of_ne (other : a.typeTag ≠ b.typeTag) : typeOrder a b = none := by
  unfold typeOrder
  split <;> first | rfl | exact absurd rfl other

theorem partialCompareValues_of_not_numeric (plain : a.floatFree = true) (plainOther : b.floatFree = true)
    (mixed : a.isNumeric = false ∨ b.isNumeric = false) : partialCompareValues f64 a b = typeOrder a b := by
  have text (numeric : a.isNumeric = true) : numericValueText f64 b = none :=
    numericValueText_eq_none plainOther (mixed.resolve_left (by rw [numeric]; decide))
  have textOther (numeric : b.isNumeric = true) : numericValueText f64 a = none :=
    numericValueText_eq_none plain (mixed.resolve_right (by rw [numeric]; decide))
  unfold partialCompareValues
  split
  all_goals try (rcases mixed with word | word <;> cases word; done)
  all_goals try (cases plain; done)
  all_goals try (cases plainOther; done)
  iterate 7 exact rfl
  · rw [text rfl, typeOrder_numeric_left rfl]
    rfl
  · rw [textOther rfl, typeOrder_numeric_right _ rfl]
    rfl
  · rw [text rfl, typeOrder_numeric_left rfl]
    rfl
  · rw [textOther rfl, typeOrder_numeric_right _ rfl]
    rfl
  · unfold typeOrder
    split <;> first | rfl | (exfalso; solve_by_elim)

def typeKey : Value → List UInt8 × Int
  | .text s => (asBytes s, 0)
  | .boolean b => ([], b.toNat)
  | .timestamp n => ([], n.toInt)
  | .duration n => ([], n.toInt)
  | .blob bytes => (bytes, 0)
  | .uuid octets => (octets.1, 0)
  | _ => ([], 0)

def compareTypeKeys (x y : List UInt8 × Int) : Ordering := (compareBytes x.1 y.1).then (compare x.2 y.2)

def hasOrder (tag : Nat) : Bool := [0, 4, 5, 6, 7, 8, 14].contains tag

theorem typeKey_of_no_order (unordered : hasOrder a.typeTag = false) : typeKey a = ([], 0) := by
  cases a <;> first | rfl | cases unordered

theorem compareBytes_self (bytes : List UInt8) : compareBytes bytes bytes = .eq := Std.ReflCmp.compare_self

theorem compareTypeKeys_self (x : List UInt8 × Int) : compareTypeKeys x x = .eq := by
  rw [compareTypeKeys, compareBytes_self, compare_eq_iff_eq.mpr rfl]
  rfl

theorem compareTypeKeys_bytes (x y : List UInt8) : compareTypeKeys (x, 0) (y, 0) = compareBytes x y :=
  then_eq

theorem typeOrder_eq (same : a.typeTag = b.typeTag) :
    (typeOrder a b).getD .eq = compareTypeKeys (typeKey a) (typeKey b) := by
  cases ordered : hasOrder a.typeTag with
  | false =>
    rw [typeKey_of_no_order ordered, typeKey_of_no_order (same ▸ ordered), compareTypeKeys_self]
    unfold typeOrder
    split <;> first | rfl | cases ordered
  | true =>
    unfold typeOrder
    split
    · rfl
    · exact (compareTypeKeys_bytes _ _).symm
    · next left right => cases left <;> cases right <;> rfl
    · rfl
    · rfl
    · exact (compareTypeKeys_bytes _ _).symm
    · exact (compareTypeKeys_bytes _ _).symm
    · exfalso
      cases a <;> first | (cases ordered; done) | (cases b <;> first | (cases same; done) | solve_by_elim)

end

section

variable (f64 : FloatOps) {a b : Value}

def Readable (v : Value) : Prop := ∀ s ∈ v.literal, (parse s.toList).isSome = true ∧ ParsedDecimal.Fits s.toList

instance : DecidablePred Readable := fun v => inferInstanceAs (Decidable (∀ s ∈ v.literal, _))

noncomputable def number : Value → ℚ
  | .integer n => n.toInt
  | .unsignedInteger n => n.toNat
  | .decimal n => n.toInt / 10 ^ 4
  | .decimalText s => ((parse s.toList).map ParsedDecimal.value).getD 0
  | _ => 0

theorem natAbs_toInt_lt (n : BitVec 64) : n.toInt.natAbs < 10 ^ 20 := by
  have low := BitVec.le_toInt n
  have high := BitVec.toInt_lt (x := n)
  omega

theorem numbers_cases (a b : Value) :
    (∃ m n, a.decimalUnits = some m ∧ b.decimalUnits = some n) ∨
      (∃ m n, a.integerValue = some m ∧ b.integerValue = some n) ∨
      ((a.integerValue = none ∨ b.integerValue = none) ∧ (a.decimalUnits = none ∨ b.decimalUnits = none)) := by
  cases units : a.decimalUnits with
  | some m =>
    have text : a.integerValue = none := by cases a <;> first | rfl | cases units
    cases b.decimalUnits <;> simp [text]
  | none => cases a.integerValue <;> cases b.integerValue <;> simp

section

variable (numeric : a.isNumeric = true)
include numeric

theorem numericValueText_spec (readable : Readable a) :
    ∃ text d, numericValueText f64 a = some text ∧ parse text = some d ∧ d.Normal ∧ d.value = number a := by
  cases a
  case integer n =>
    obtain ⟨d, parsed, normal, value⟩ := parse_integerText (natAbs_toInt_lt n)
    exact ⟨_, d, rfl, parsed, normal, value⟩
  case unsignedInteger n =>
    have bounded : (n.toNat : Int).natAbs < 10 ^ 20 := by
      have := n.isLt
      omega
    obtain ⟨d, parsed, normal, value⟩ := parse_integerText bounded
    exact ⟨_, d, rfl, parsed, normal, by rw [value, number]; norm_cast⟩
  case decimal n =>
    obtain ⟨d, parsed, normal, value⟩ := parse_formatScaledI64 (natAbs_toInt_lt n)
    exact ⟨_, d, rfl, parsed, normal, value⟩
  case decimalText s =>
    obtain ⟨valid, fits⟩ := readable s rfl
    obtain ⟨d, parsed⟩ := isSome_iff_exists.mp valid
    refine ⟨s.toList, d, rfl, parsed, parse_normal fits parsed, ?_⟩
    rw [number, parsed]
    rfl
  all_goals cases numeric

theorem partialCompareValues_by_text (numericOther : b.isNumeric = true)
    (integers : a.integerValue = none ∨ b.integerValue = none)
    (decimals : a.decimalUnits = none ∨ b.decimalUnits = none) :
    partialCompareValues f64 a b = (do compareDecimalText (← numericValueText f64 a) (← numericValueText f64 b)) := by
  unfold partialCompareValues
  split
  all_goals try (cases numeric; done)
  all_goals try (cases numericOther; done)
  all_goals try (rcases integers with no | no <;> cases no; done)
  all_goals try (rcases decimals with no | no <;> cases no; done)
  iterate 5
    · simp only [numericValueText, bind_eq_bind, bind_some]
  · exfalso
    cases a <;> first
      | (cases numeric; done)
      | (cases b <;> first
          | (cases numericOther; done)
          | (rcases integers with no | no <;> cases no; done)
          | solve_by_elim)

theorem compareDecimalText_eq (numericOther : b.isNumeric = true)
    (readable : Readable a) (readableOther : Readable b) :
    (do compareDecimalText (← numericValueText f64 a) (← numericValueText f64 b)) =
      some (compare (place (number a)) (place (number b))) := by
  obtain ⟨text, d, printed, parsed, normal, value⟩ := numericValueText_spec f64 numeric readable
  obtain ⟨textOther, other, printedOther, parsedOther, normalOther, valueOther⟩ :=
    numericValueText_spec f64 numericOther readableOther
  rw [printed, printedOther, ← value, ← valueOther, ← normal.cmp_eq normalOther]
  simp [compareDecimalText, parsed, parsedOther]

end

theorem compare_div (m n : Int) : compare ((m : ℚ) / 10 ^ 4) ((n : ℚ) / 10 ^ 4) = compare m n := by
  have positive : (0 : ℚ) < 10 ^ 4 := by norm_num
  have increasing : StrictMono fun n : Int => (n : ℚ) / 10 ^ 4 := fun _ _ less =>
    (div_lt_div_iff_of_pos_right positive).mpr (cast_lt.mpr less)
  exact compare_map increasing m n

theorem partialCompareValues_decimal {m n : Int} (units : a.decimalUnits = some m)
    (unitsOther : b.decimalUnits = some n) :
    partialCompareValues f64 a b = some (compare (number a) (number b)) ∧ number a = m / 10 ^ 4 ∧
      number b = n / 10 ^ 4 := by
  cases a <;> first
    | (cases units; done)
    | (cases b <;> first | (cases unitsOther; done) | skip)
  cases units
  cases unitsOther
  refine ⟨?_, rfl, rfl⟩
  rw [number, number, compare_div]
  rfl

theorem partialCompareValues_integer {m n : Int} (integer : a.integerValue = some m)
    (integerOther : b.integerValue = some n) :
    partialCompareValues f64 a b = some (compare m n) ∧ number a = m ∧ number b = n := by
  cases a <;> first
    | (cases integer; done)
    | (cases b <;> first | (cases integerOther; done) | skip)
  all_goals
    cases integer
    cases integerOther
  · exact ⟨rfl, rfl, rfl⟩
  · exact ⟨rfl, rfl, by rw [number]; norm_cast⟩
  · exact ⟨rfl, by rw [number]; norm_cast, rfl⟩
  · refine ⟨congrArg some ?_, by rw [number]; norm_cast, by rw [number]; norm_cast⟩
    exact (compare_map natCast_strictMono _ _).symm

end

/-- Every decimal literal is a number, decimals do not hold zero together with a number between zero and one
    once other numbers are compared with them, and no other type's tag stands between those of two numbers. -/
structure Coherent (values : List Value) : Prop where
  readable : ∀ v ∈ values, Readable v
  zero : (∀ v ∈ values, v.isNumeric = true → v.decimalUnits ≠ none) ∨ (∀ v ∈ values, v.decimalUnits ≠ some 0) ∨
    ∀ v ∈ values, ∀ n ∈ v.decimalUnits, ¬ (0 < n ∧ n < 10 ^ 4)
  apart : ∀ a ∈ values, ∀ b ∈ values, ∀ v ∈ values, a.isNumeric = true → b.isNumeric = true →
    v.isNumeric = false → ¬ (a.typeTag < v.typeTag ∧ v.typeTag < b.typeTag)

section

variable {values : List Value} {a b : Value}

theorem compare_decimals {m n : Int} (apart : ¬ (m = 0 ∧ 0 < n ∧ n < 10 ^ 4)) (apartOther : ¬ (n = 0 ∧ 0 < m ∧ m < 10 ^ 4)) :
    compare (place ((m : ℚ) / 10 ^ 4)) (place ((n : ℚ) / 10 ^ 4)) = compare ((m : ℚ) / 10 ^ 4) ((n : ℚ) / 10 ^ 4) := by
  have positive : (0 : ℚ) < 10 ^ 4 := by norm_num
  have zero_of {k : Int} (zero : (k : ℚ) / 10 ^ 4 = 0) : k = 0 := by
    rcases div_eq_zero_iff.mp zero with none_ | wrong
    · exact cast_eq_zero.mp none_
    · exact absurd wrong positive.ne'
  have outside {k : Int} (far : ¬ (0 < k ∧ k < 10 ^ 4)) : (k : ℚ) / 10 ^ 4 ≤ 0 ∨ 1 ≤ (k : ℚ) / 10 ^ 4 := by
    rcases le_or_gt k 0 with low | above
    · exact .inl (div_nonpos_of_nonpos_of_nonneg (cast_nonpos.mpr low) positive.le)
    · have high : (10 ^ 4 : Int) ≤ k := not_lt.mp fun below => far ⟨above, below⟩
      exact .inr ((one_le_div positive).mpr (by exact_mod_cast high))
  exact compare_place_of_apart (fun zero => outside fun within => apart ⟨zero_of zero, within⟩)
    fun zero => outside fun within => apartOther ⟨zero_of zero, within⟩

section

variable (f64 : FloatOps) (nulls : NullsOrder)

theorem Coherent.compare_numbers (coherent : Coherent values) :
    ∃ locate : ℚ → ℚ ×ₗ ℕ, ∀ a ∈ values, ∀ b ∈ values, a.isNumeric = true → b.isNumeric = true →
      partialCompareValues f64 a b = some (compare (locate (number a)) (locate (number b))) := by
  by_cases decimals : ∀ v ∈ values, v.isNumeric = true → v.decimalUnits ≠ none
  · have increasing : StrictMono fun q : ℚ => toLex (q, 1) := fun _ _ less =>
      Prod.Lex.toLex_lt_toLex.mpr (.inl less)
    refine ⟨fun q => toLex (q, 1), fun a member b memberOther numeric numericOther => ?_⟩
    obtain ⟨m, units⟩ := ne_none_iff_exists'.mp (decimals a member numeric)
    obtain ⟨n, unitsOther⟩ := ne_none_iff_exists'.mp (decimals b memberOther numericOther)
    rw [(partialCompareValues_decimal f64 units unitsOther).1, compare_map increasing]
  · refine ⟨place, fun a member b memberOther numeric numericOther => ?_⟩
    have byText := compareDecimalText_eq f64 numeric numericOther (coherent.readable a member)
      (coherent.readable b memberOther)
    rcases numbers_cases a b with ⟨m, n, units, unitsOther⟩ | ⟨m, n, integer, integerOther⟩ | ⟨integers, decimals⟩
    · obtain ⟨compared, value, valueOther⟩ := partialCompareValues_decimal f64 units unitsOther
      have far {k l : Int} {v w : Value} (first : v ∈ values) (second : w ∈ values)
          (unitsFirst : v.decimalUnits = some k) (unitsSecond : w.decimalUnits = some l) :
          ¬ (k = 0 ∧ 0 < l ∧ l < 10 ^ 4) := by
        rintro ⟨rfl, within⟩
        rcases coherent.zero.resolve_left decimals with nonzero | outside
        · exact nonzero v first unitsFirst
        · exact outside w second l unitsSecond within
      rw [compared, value, valueOther, compare_decimals (far member memberOther units unitsOther)
        (far memberOther member unitsOther units)]
    · obtain ⟨compared, value, valueOther⟩ := partialCompareValues_integer f64 integer integerOther
      rw [compared, value, valueOther, compare_place_int]
    · rw [partialCompareValues_by_text f64 numeric numericOther integers decimals, byText]

theorem isNumeric_eq_tag (v : Value) : v.isNumeric = [1, 2, 27, 55].contains v.typeTag := by
  cases v <;> rfl

theorem totalCompareValues_of_not_numeric (plain : a.floatFree = true)
    (plainOther : b.floatFree = true) (mixed : a.isNumeric = false ∨ b.isNumeric = false) :
    totalCompareValues f64 a b = (compare a.typeTag b.typeTag).then (compareTypeKeys (typeKey a) (typeKey b)) := by
  unfold totalCompareValues
  rw [partialCompareValues_of_not_numeric plain plainOther mixed]
  by_cases same : a.typeTag = b.typeTag
  · rw [compare_eq_iff_eq.mpr same, eq_then, typeOrder_eq same]
  · rw [typeOrder_of_ne same, getD_none]
    rcases lt_or_gt_of_ne same with less | greater
    · rw [compare_lt_iff_lt.mpr less, lt_then]
    · rw [compare_gt_iff_gt.mpr greater, gt_then]

theorem partialCompareValues_swap (numeric : a.isNumeric = true) (numericOther : b.isNumeric = true) :
    partialCompareValues f64 b a = (partialCompareValues f64 a b).map swap := by
  rcases numbers_cases a b with ⟨m, n, units, unitsOther⟩ | ⟨m, n, integer, integerOther⟩ | ⟨integers, decimals⟩
  · rw [(partialCompareValues_decimal f64 units unitsOther).1, (partialCompareValues_decimal f64 unitsOther units).1]
    exact congrArg some eq_swap
  · rw [(partialCompareValues_integer f64 integer integerOther).1,
      (partialCompareValues_integer f64 integerOther integer).1]
    exact congrArg some eq_swap
  · rw [partialCompareValues_by_text f64 numeric numericOther integers decimals,
      partialCompareValues_by_text f64 numericOther numeric integers.symm decimals.symm]
    cases numericValueText f64 a <;> cases numericValueText f64 b
    · rfl
    · rfl
    · rfl
    · simp only [bind_eq_bind, bind_some]
      exact compareDecimalText_swap _ _

theorem totalCompareValues_swap (plain : a.floatFree = true) (plainOther : b.floatFree = true) :
    totalCompareValues f64 b a = (totalCompareValues f64 a b).swap := by
  by_cases mixed : a.isNumeric = false ∨ b.isNumeric = false
  · rw [totalCompareValues_of_not_numeric f64 plain plainOther mixed,
      totalCompareValues_of_not_numeric f64 plainOther plain mixed.symm, compareTypeKeys, compareTypeKeys,
      swap_then, swap_then, Nat.compare_swap, ← eq_swap,
      ← eq_swap]
  · obtain ⟨numeric, numericOther⟩ := not_or.mp mixed
    rw [Bool.not_eq_false] at numeric numericOther
    unfold totalCompareValues
    rw [partialCompareValues_swap f64 numeric numericOther]
    cases partialCompareValues f64 a b with
    | none => exact (Nat.compare_swap _ _).symm
    | some order => rfl

theorem totalCompareValues_self (plain : a.floatFree = true) : totalCompareValues f64 a a = .eq := by
  have turned := totalCompareValues_swap f64 plain plain
  cases result : totalCompareValues f64 a a with
  | eq => rfl
  | lt | gt => rw [result] at turned; cases turned

theorem Coherent.exists_rank (coherent : Coherent values) :
    ∃ pivot : Nat, ∀ a ∈ values, ∀ v ∈ values, a.isNumeric = true → v.isNumeric = false →
      compare a.typeTag v.typeTag = compare pivot v.typeTag ∧ a.typeTag ≠ v.typeTag ∧ pivot ≠ v.typeTag := by
  have differ {n v : Value} (numeric : n.isNumeric = true) (word : v.isNumeric = false) : n.typeTag ≠ v.typeTag := by
    intro same
    rw [isNumeric_eq_tag, same, ← isNumeric_eq_tag, word] at numeric
    cases numeric
  by_cases some_ : ∃ n ∈ values, n.isNumeric = true
  · obtain ⟨n, inside, number⟩ := some_
    refine ⟨n.typeTag, fun a member v memberOther numeric word => ⟨?_, differ numeric word, differ number word⟩⟩
    have below := coherent.apart a member n inside v memberOther numeric number word
    have above := coherent.apart n inside a member v memberOther number numeric word
    rcases lt_or_gt_of_ne (differ numeric word) with less | greater
    · rw [compare_lt_iff_lt.mpr less, Eq.comm, compare_lt_iff_lt]
      have := differ number word
      omega
    · rw [compare_gt_iff_gt.mpr greater, Eq.comm, compare_gt_iff_gt]
      have := differ number word
      omega
  · exact ⟨0, fun a member v _ numeric _ => absurd ⟨a, member, numeric⟩ some_⟩

theorem preorderOn_typeKeys (values : List Value) :
    PreorderOn (fun a b => compareTypeKeys (typeKey a) (typeKey b)) values := by
  have bytes : PreorderOn (fun a b => compareBytes (typeKey a).1 (typeKey b).1) values :=
    .of_key (fun v => (typeKey v).1) fun _ _ _ _ => rfl
  have numbers : PreorderOn (fun a b => compare (typeKey a).2 (typeKey b).2) values :=
    .of_key (fun v => (typeKey v).2) fun _ _ _ _ => rfl
  exact bytes.thenBy numbers

theorem typeKey_of_numeric (numeric : a.isNumeric = true) : typeKey a = ([], 0) := by
  cases a <;> first | rfl | cases numeric

theorem Coherent.preorderOn (plain : ∀ v ∈ values, v.floatFree = true)
    (coherent : Coherent values) : PreorderOn (totalCompareValues f64) values := by
  obtain ⟨locate, numbers⟩ := coherent.compare_numbers f64
  obtain ⟨pivot, ranked⟩ := coherent.exists_rank
  have ranks : PreorderOn (fun a b => compare (if a.isNumeric then pivot else a.typeTag)
      (if b.isNumeric then pivot else b.typeTag)) values :=
    .of_key (fun v : Value => if v.isNumeric then pivot else v.typeTag) fun _ _ _ _ => rfl
  have places : PreorderOn (fun a b => compare (locate (if a.isNumeric then number a else 0))
      (locate (if b.isNumeric then number b else 0))) values :=
    .of_key (fun v : Value => locate (if v.isNumeric then number v else 0)) fun _ _ _ _ => rfl
  refine ((ranks.thenBy places).thenBy (preorderOn_typeKeys values)).congr fun a member b memberOther => ?_
  have words (mixed : a.isNumeric = false ∨ b.isNumeric = false) :=
    totalCompareValues_of_not_numeric f64 (plain a member) (plain b memberOther) mixed
  cases numeric : a.isNumeric with
  | true =>
    cases numericOther : b.isNumeric with
    | true =>
      rw [totalCompareValues, numbers a member b memberOther numeric numericOther, typeKey_of_numeric numeric,
        typeKey_of_numeric numericOther, compareTypeKeys_self]
      simp
    | false =>
      obtain ⟨same, apart, apartPivot⟩ := ranked a member b memberOther numeric numericOther
      rw [words (.inr numericOther), same]
      simp only [if_true, Bool.false_eq_true, if_false]
      rcases lt_or_gt_of_ne apartPivot with less | greater
      · simp only [compare_lt_iff_lt.mpr less, lt_then]
      · simp only [compare_gt_iff_gt.mpr greater, gt_then]
  | false =>
    cases numericOther : b.isNumeric with
    | true =>
      obtain ⟨same, apart, apartPivot⟩ := ranked b memberOther a member numericOther numeric
      have turned : compare a.typeTag b.typeTag = compare a.typeTag pivot := by
        rw [← Nat.compare_swap, same, Nat.compare_swap]
      rw [words (.inl numeric), turned]
      simp only [if_true, Bool.false_eq_true, if_false]
      rcases lt_or_gt_of_ne apartPivot with less | greater
      · simp only [compare_gt_iff_gt.mpr less, gt_then]
      · simp only [compare_lt_iff_lt.mpr greater, lt_then]
    | false =>
      rw [words (.inl numeric)]
      simp

def nullRank : Value → Nat
  | .null =>
    match nulls with
    | .first => 0
    | .last => 2
  | _ => 1

theorem nullRank_of_ne (other : a = .null → False) : nullRank nulls a = 1 := by
  unfold nullRank
  split
  · exact absurd rfl other
  · rfl

end

theorem SortKey.preorderOn {f64 : FloatOps} (order : PreorderOn (totalCompareValues f64) values) (key : SortKey) :
    PreorderOn (key.compare f64) values := by
  have nulls : PreorderOn (fun a b => Ord.compare (nullRank key.nulls a) (nullRank key.nulls b)) values :=
    .of_key (nullRank key.nulls) fun _ _ _ _ => rfl
  have directed : PreorderOn (fun a b =>
      if key.direction = .asc then totalCompareValues f64 a b else (totalCompareValues f64 a b).swap) values := by
    by_cases ascending : key.direction = .asc
    · simpa only [if_pos ascending] using order
    · simpa only [if_neg ascending] using order.reverse
  refine (nulls.thenBy directed).congr fun a _ b _ => ?_
  unfold SortKey.compare
  split
  · rw [compare_eq_iff_eq.mpr rfl, eq_then]
    cases key.direction <;> rfl
  · next other =>
    rw [nullRank_of_ne _ other]
    cases key.nulls <;> rfl
  · next other _ =>
    rw [nullRank_of_ne _ other]
    cases key.nulls <;> rfl
  · next some_ someOther _ =>
    have tied : Ord.compare 1 1 = Ordering.eq := rfl
    rw [nullRank_of_ne _ some_, nullRank_of_ne _ someOther]
    cases key.direction <;> simp only [tied, eq_then, reduceCtorEq, if_true, if_false]

/-- A set of types with no decimal literals, and not with both scaled decimals and integers. -/
def Orderable (tags : Set Nat) : Prop :=
  (Value.decimalText "").typeTag ∉ tags ∧ ((Value.decimal 0).typeTag ∈ tags →
    (Value.integer 0).typeTag ∉ tags ∧ (Value.unsignedInteger 0).typeTag ∉ tags)

theorem coherent_of_orderable {tags : Set Nat} (orderable : Orderable tags)
    (typed : ∀ v ∈ values, v.typeTag ∈ tags) : Coherent values := by
  obtain ⟨literals, mixed⟩ := orderable
  have readable : ∀ v ∈ values, v.literal = none := by
    intro v member
    cases v
    case decimalText s => exact absurd (typed _ member) literals
    all_goals rfl
  have numeric (v : Value) (member : v ∈ values) (number : v.isNumeric = true) :
      (∃ n, v = .decimal n) ∨ v.typeTag = 1 ∨ v.typeTag = 2 := by
    cases v
    case integer => exact .inr (.inl rfl)
    case unsignedInteger => exact .inr (.inr rfl)
    case decimal n => exact .inl ⟨n, rfl⟩
    case decimalText s => exact absurd (typed _ member) literals
    all_goals cases number
  -- a decimal among the values leaves no place for integers
  have decimals {n : BitVec 64} (member : .decimal n ∈ values) {v : Value} (other : v ∈ values)
      (number : v.isNumeric = true) : ∃ m, v = .decimal m := by
    have held : 27 ∈ tags := typed (.decimal n) member
    obtain ⟨integers, naturals⟩ := mixed held
    rcases numeric v other number with decimal | one | two
    · exact decimal
    · have held := typed v other
      rw [one] at held
      exact absurd held integers
    · have held := typed v other
      rw [two] at held
      exact absurd held naturals
  refine ⟨fun v member s held => ?_, ?_, fun a first b second v third one two other between => ?_⟩
  · rw [readable v member] at held
    cases held
  · by_cases some_ : ∃ n, Value.decimal n ∈ values
    · obtain ⟨n, member⟩ := some_
      refine .inl fun v other number => ?_
      obtain ⟨m, rfl⟩ := decimals member other number
      exact nofun
    · refine .inr (.inl fun v member units => ?_)
      cases v
      case decimal n => exact some_ ⟨n, member⟩
      all_goals cases units
  · rcases numeric a first one with ⟨n, rfl⟩ | low | low
    · obtain ⟨m, rfl⟩ := decimals first second two
      exact lt_asymm between.1 between.2
    all_goals
      rcases numeric b second two with ⟨n, rfl⟩ | high | high
      · obtain ⟨m, rfl⟩ := decimals second first one
        cases low
      all_goals omega

section

variable (f64 : FloatOps)

theorem compareLiteral (s t : String) : totalCompareValues f64 (.decimalText s) (.decimalText t) =
    (compareDecimalText s.toList t.toList).getD .eq := by
  have tag : compare (Value.decimalText s).typeTag (Value.decimalText t).typeTag = .eq := compare_eq_iff_eq.mpr rfl
  rw [totalCompareValues, tag]
  rfl

theorem compareZero {v : Value} (zero : numericValueText f64 v = some ['0']) (numeric : v.isNumeric = true)
    (whole : v.decimalUnits = none) (n : BitVec 64) : totalCompareValues f64 v (.decimal n) =
      ((compareDecimalText ['0'] (formatScaledI64 n.toInt 4)).getD (compare v.typeTag 27)) := by
  rw [totalCompareValues, partialCompareValues_by_text f64 numeric rfl (.inr rfl) (.inl whole), zero]
  rfl

/-- Zero, read as an integer, is equal to the decimal zero and stands above a half. -/
theorem not_preorderOn_zero {v : Value} (zero : numericValueText f64 v = some ['0']) (numeric : v.isNumeric = true)
    (whole : v.decimalUnits = none) :
    ¬ PreorderOn (totalCompareValues f64) [v, .decimal 0, .decimal 5000] := by
  intro order
  have equal : totalCompareValues f64 v (.decimal 0) = .eq := by
    rw [compareZero f64 zero numeric whole, show compareDecimalText ['0'] (formatScaledI64 (0 : BitVec 64).toInt 4) =
      some .eq by decide +kernel, getD_some]
  have above : totalCompareValues f64 v (.decimal 5000) = .gt := by
    rw [compareZero f64 zero numeric whole, show compareDecimalText ['0'] (formatScaledI64 (5000 : BitVec 64).toInt 4) =
      some .gt by decide +kernel, getD_some]
  have back := order.swap v (by simp) (.decimal 5000) (by simp)
  rw [above] at back
  have chained := order.trans (.decimal 5000) (by simp) v (by simp) (.decimal 0) (by simp) (by rw [back]; rfl)
    (by rw [equal]; rfl)
  have decimals : totalCompareValues f64 (.decimal 5000) (.decimal 0) = .gt :=
    show compare (5000 : BitVec 64).toInt (0 : BitVec 64).toInt = .gt by decide
  rw [decimals] at chained
  cases chained

theorem not_preorderOn_literals :
    ¬ PreorderOn (totalCompareValues f64) [.decimalText "2", .decimalText "x", .decimalText "1"] := by
  intro order
  have chained := order.trans (.decimalText "2") (by simp) (.decimalText "x") (by simp) (.decimalText "1") (by simp)
  simp only [compareLiteral, show compareDecimalText "2".toList "x".toList = none by decide +kernel,
    show compareDecimalText "x".toList "1".toList = none by decide +kernel,
    show compareDecimalText "2".toList "1".toList = some .gt by decide +kernel] at chained
  cases chained rfl rfl

end

/-- The comparison is a preorder on all values of a set of types exactly if the types are orderable. Whatever the types,
    it is reflexive and antisymmetric, and a preorder on coherent values. -/
theorem totalCompareValues_lawful (f64 : FloatOps) (tags : Set Nat) :
    ((∀ values, (∀ v ∈ values, v.floatFree = true ∧ v.typeTag ∈ tags) → PreorderOn (totalCompareValues f64) values) ↔
      Orderable tags) ∧
    ∀ values, (∀ v ∈ values, v.floatFree = true) →
      (∀ a ∈ values, totalCompareValues f64 a a = .eq) ∧
      (∀ a ∈ values, ∀ b ∈ values, totalCompareValues f64 b a = (totalCompareValues f64 a b).swap) ∧
      (Coherent values →
        PreorderOn (totalCompareValues f64) values ∧ ∀ key : SortKey, PreorderOn (key.compare f64) values) := by
  refine ⟨⟨fun lawful => ⟨fun literals => ?_, fun decimals => ⟨fun integers => ?_, fun naturals => ?_⟩⟩,
    fun orderable values typed => ?_⟩, fun values plain => ⟨fun a member => totalCompareValues_self f64 (plain a member),
    fun a member b memberOther => totalCompareValues_swap f64 (plain a member) (plain b memberOther), fun coherent => ?_⟩⟩
  · refine not_preorderOn_literals f64 (lawful _ ?_)
    simp only [List.mem_cons, List.not_mem_nil, or_false]
    rintro v (rfl | rfl | rfl) <;> exact ⟨rfl, literals⟩
  · refine not_preorderOn_zero f64 (v := .integer 0) rfl rfl rfl (lawful _ ?_)
    simp only [List.mem_cons, List.not_mem_nil, or_false]
    rintro v (rfl | rfl | rfl)
    · exact ⟨rfl, integers⟩
    all_goals exact ⟨rfl, decimals⟩
  · refine not_preorderOn_zero f64 (v := .unsignedInteger 0) rfl rfl rfl (lawful _ ?_)
    simp only [List.mem_cons, List.not_mem_nil, or_false]
    rintro v (rfl | rfl | rfl)
    · exact ⟨rfl, naturals⟩
    all_goals exact ⟨rfl, decimals⟩
  · exact (coherent_of_orderable orderable fun v member => (typed v member).2).preorderOn f64 fun v member =>
      (typed v member).1
  · have order := coherent.preorderOn f64 plain
    exact ⟨order, SortKey.preorderOn order⟩

theorem totalCompareValues_lawful_numbers : PreorderOn (totalCompareValues default)
      [.null, .integer 5, .unsignedInteger 7, .decimal 0, .decimal 30000, .decimalText "2.5e-1"] := by
  refine (((totalCompareValues_lawful default ∅).2 _ ?_).2.2 ⟨?_, .inr (.inr ?_), ?_⟩).1
  · decide
  · decide +kernel
  · decide
  · decide

/-- The tag of text stands between the tags of two numbers, and zero, compared as text, stands above a half. -/
theorem totalCompareValues_not_transitive : totalCompareValues default (.integer 5) (.text "x") = .lt ∧
    totalCompareValues default (.text "x") (.decimal 30000) = .lt ∧
    totalCompareValues default (.integer 5) (.decimal 30000) = .gt ∧
    totalCompareValues default (.integer 0) (.decimal 0) = .eq ∧
    totalCompareValues default (.decimal 0) (.decimal 5000) = .lt ∧
    totalCompareValues default (.integer 0) (.decimal 5000) = .gt := by
  have compared (f64 : FloatOps) (a b : BitVec 64) : partialCompareValues f64 (.integer a) (.decimal b) =
      compareDecimalText (integerText a.toInt) (formatScaledI64 b.toInt 4) := by
    rw [partialCompareValues_by_text f64 rfl rfl (.inr rfl) (.inl rfl)]
    simp only [numericValueText, bind_eq_bind, bind_some]
  have five : compareDecimalText (integerText (5 : BitVec 64).toInt)
      (formatScaledI64 (30000 : BitVec 64).toInt 4) = some .gt := by decide +kernel
  have zero : compareDecimalText (integerText (0 : BitVec 64).toInt)
      (formatScaledI64 (0 : BitVec 64).toInt 4) = some .eq := by decide +kernel
  have half : compareDecimalText (integerText (0 : BitVec 64).toInt)
      (formatScaledI64 (5000 : BitVec 64).toInt 4) = some .gt := by decide +kernel
  have decimals (f64 : FloatOps) (a b : BitVec 64) :
      totalCompareValues f64 (.decimal a) (.decimal b) = compare a.toInt b.toInt := rfl
  have words (f64 : FloatOps) (n : BitVec 64) (s : String) :
      totalCompareValues f64 (.integer n) (.text s) = compare 1 4 ∧
        totalCompareValues f64 (.text s) (.decimal n) = compare 4 27 := ⟨rfl, rfl⟩
  refine ⟨(words default 5 "x").1, (words default 30000 "x").2, ?_, ?_, ?_, ?_⟩
  · rw [totalCompareValues, compared, five, getD_some]
  · rw [totalCompareValues, compared, zero, getD_some]
  · rw [decimals]
    decide
  · rw [totalCompareValues, compared, half, getD_some]

end

end RedDB.Types
