import RedDB.Library.OrderCode

namespace RedDB.Library

open List Nat

def digitValue (c : Char) : Nat := c.toNat - 48

def digitsValue (ds : List Char) : Nat := ds.foldl (fun value c => value * 10 + digitValue c) 0

def AllDigits (ds : List Char) : Prop := ∀ c ∈ ds, c.isDigit = true

instance (ds : List Char) : Decidable (AllDigits ds) :=
  List.decidableBAll (fun c : Char => c.isDigit = true) ds

abbrev compareChars : List Char → List Char → Ordering := List.compareLex (compareOn Char.toNat)

theorem isDigit_bounds {c : Char} (digit : c.isDigit = true) : 48 ≤ c.toNat ∧ c.toNat ≤ 57 := by
  simp only [Char.isDigit, Bool.and_eq_true, decide_eq_true_eq] at digit
  exact ⟨digit.1, digit.2⟩

theorem foldl_digits (ds : List Char) (start : Nat) :
    ds.foldl (fun value c => value * 10 + digitValue c) start = start * 10 ^ ds.length + digitsValue ds := by
  induction ds generalizing start with
  | nil => simp [digitsValue]
  | cons c ds ih =>
    have whole : digitsValue (c :: ds) = digitValue c * 10 ^ ds.length + digitsValue ds := by
      unfold digitsValue
      rw [foldl_cons, ih, Nat.zero_mul, Nat.zero_add, digitsValue]
    rw [foldl_cons, ih, whole, length_cons, Nat.pow_succ', Nat.add_mul, Nat.mul_assoc, Nat.add_assoc]

@[simp] theorem digitsValue_nil : digitsValue [] = 0 := rfl

theorem digitsValue_cons (c : Char) (ds : List Char) :
    digitsValue (c :: ds) = digitValue c * 10 ^ ds.length + digitsValue ds := by
  rw [digitsValue, foldl_cons, foldl_digits, Nat.zero_mul, Nat.zero_add]

theorem digitsValue_append (ds es : List Char) :
    digitsValue (ds ++ es) = digitsValue ds * 10 ^ es.length + digitsValue es := by
  unfold digitsValue
  rw [foldl_append, foldl_digits, digitsValue]

@[simp] theorem digitValue_zero : digitValue '0' = 0 := rfl

@[simp] theorem digitsValue_zero_cons (ds : List Char) : digitsValue ('0' :: ds) = digitsValue ds := by
  rw [digitsValue_cons, digitValue_zero, Nat.zero_mul, Nat.zero_add]

theorem digitsValue_append_zeros (ds : List Char) (k : Nat) :
    digitsValue (ds ++ List.replicate k '0') = digitsValue ds * 10 ^ k := by
  have zeros : digitsValue (List.replicate k '0') = 0 := by
    induction k with
    | zero => rfl
    | succ k ih => rw [replicate_succ, digitsValue_zero_cons, ih]
  rw [digitsValue_append, zeros, length_replicate, Nat.add_zero]

theorem digitsValue_lt {ds : List Char} (digits : AllDigits ds) : digitsValue ds < 10 ^ ds.length := by
  induction ds with
  | nil => decide
  | cons c ds ih =>
    have bounds := isDigit_bounds (digits c mem_cons_self)
    have small : digitValue c ≤ 9 := by
      unfold digitValue
      omega
    have tail := ih fun d member => digits d (mem_cons_of_mem _ member)
    have scaled : digitValue c * 10 ^ ds.length ≤ 9 * 10 ^ ds.length := Nat.mul_le_mul_right _ small
    rw [digitsValue_cons, length_cons, Nat.pow_succ]
    omega

theorem le_digitsValue {c : Char} {ds : List Char} (digit : c.isDigit = true) (nonzero : c ≠ '0') :
    10 ^ ds.length ≤ digitsValue (c :: ds) := by
  have bounds := isDigit_bounds digit
  have other : c.toNat ≠ 48 := fun same => nonzero (Char.ext (UInt32.toNat_inj.mp same))
  have positive : 1 ≤ digitValue c := by
    unfold digitValue
    omega
  rw [digitsValue_cons]
  have scaled : 1 * 10 ^ ds.length ≤ digitValue c * 10 ^ ds.length := Nat.mul_le_mul_right _ positive
  omega

theorem compareChars_digits {ds es : List Char} (digits : AllDigits ds) (digitsOther : AllDigits es)
    (same : ds.length = es.length) : compareChars ds es = compare (digitsValue ds) (digitsValue es) := by
  induction ds generalizing es with
  | nil =>
    cases es with
    | nil => rfl
    | cons e es => cases same
  | cons d ds ih =>
    cases es with
    | nil => cases same
    | cons e es =>
      have lengths : ds.length = es.length := Nat.succ.inj same
      have tail : AllDigits ds := fun c member => digits c (mem_cons_of_mem _ member)
      have tailOther : AllDigits es := fun c member => digitsOther c (mem_cons_of_mem _ member)
      have bounds := isDigit_bounds (digits d mem_cons_self)
      have boundsOther := isDigit_bounds (digitsOther e mem_cons_self)
      have low := digitsValue_lt tail
      have lowOther := digitsValue_lt tailOther
      rw [← lengths] at lowOther
      have first : compare d.toNat e.toNat = compare (digitValue d) (digitValue e) := by
        have increasing : StrictMono fun n : Nat => n + 48 := fun _ _ less => Nat.add_lt_add_right less 48
        have shifted : d.toNat = digitValue d + 48 ∧ e.toNat = digitValue e + 48 := by
          unfold digitValue
          omega
        rw [shifted.1, shifted.2]
        exact compare_map increasing _ _
      rw [digitsValue_cons, digitsValue_cons, ← lengths, compare_mul_add low lowOther, ← ih tail tailOther lengths, ← first]
      exact List.compareLex_cons_cons

section

def decimalDigits (n : Nat) : List Char := toDigits 10 n

theorem digitChar_spec {d : Nat} (small : d < 10) : d.digitChar.isDigit = true ∧ digitValue d.digitChar = d := by
  have cases_ : ∀ d < 10, (digitChar d).isDigit = true ∧ digitValue (digitChar d) = d := by decide
  exact cases_ d small

theorem decimalDigits_eq (n : Nat) :
    decimalDigits n = if n < 10 then [n.digitChar] else decimalDigits (n / 10) ++ [(n % 10).digitChar] :=
  toDigits_eq_if (by decide)

theorem decimalDigits_spec (n : Nat) :
    AllDigits (decimalDigits n) ∧ digitsValue (decimalDigits n) = n ∧ decimalDigits n ≠ [] := by
  induction n using Nat.strong_induction_on with
  | _ n ih =>
    rw [decimalDigits_eq]
    split_ifs with small
    · obtain ⟨digit, value⟩ := digitChar_spec small
      refine ⟨?_, ?_, by simp⟩
      · intro c member
        rw [mem_singleton.mp member]
        exact digit
      · rw [digitsValue_cons, digitsValue_nil, value, length_nil, Nat.pow_zero]
        omega
    · obtain ⟨digit, value⟩ := digitChar_spec (mod_lt n (by decide : 0 < 10))
      obtain ⟨digits, front, -⟩ := ih (n / 10) (by omega)
      refine ⟨?_, ?_, by simp⟩
      · intro c member
        rcases mem_append.mp member with early | last
        · exact digits c early
        · rw [mem_singleton.mp last]
          exact digit
      · rw [digitsValue_append, front, digitsValue_cons, digitsValue_nil, value, length_singleton,
          length_nil, Nat.pow_one, Nat.pow_zero]
        omega

theorem length_decimalDigits_le {n k : Nat} (positive : 0 < k) (below : n < 10 ^ k) :
    (decimalDigits n).length ≤ k := by
  induction k generalizing n with
  | zero => exact absurd positive (by decide)
  | succ k ih =>
    rw [decimalDigits_eq]
    split_ifs with small
    · simp
    · rw [Nat.pow_succ] at below
      have shorter : 0 < k := by
        rcases Nat.eq_zero_or_pos k with rfl | more
        · omega
        · exact more
      have front := ih shorter (n := n / 10) (by omega)
      rw [length_append, length_singleton]
      omega

end

end RedDB.Library
