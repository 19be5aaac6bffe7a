import Mathlib

namespace RedDB.Library

open List Ordering Nat UInt8

theorem compare_map {α β : Type*} [LinearOrder α] [LinearOrder β] {f : α → β} (increasing : StrictMono f) (x y : α) :
    compare (f x) (f y) = compare x y := by
  rw [← cmp_eq_compare, increasing.cmp_map_eq, cmp_eq_compare]

abbrev compareBytes : List UInt8 → List UInt8 → Ordering := List.compareLex compare

theorem compareBytes_cons (a b : UInt8) (rest other : List UInt8) :
    compareBytes (a :: rest) (b :: other) = (compare a b).then (compareBytes rest other) :=
  List.compareLex_cons_cons

/-- Whatever follows the two strings, the first difference settles `order`. -/
def Decides (x y : List UInt8) (order : Ordering) : Prop :=
  ∀ rest other, compareBytes (x ++ rest) (y ++ other) = order.then (compareBytes rest other)

namespace Decides

variable {x y : List UInt8} {order : Ordering}

section

variable (decides : Decides x y order)
include decides

theorem compare_eq : compareBytes x y = order := by
  have decided := decides [] []
  rw [append_nil, append_nil] at decided
  rw [decided]
  cases order <;> rfl

theorem eq_iff : x = y ↔ order = .eq := by
  rw [← decides.compare_eq]
  exact Std.LawfulEqCmp.compare_eq_iff_eq.symm

theorem eq_of_isPrefix (begins : x <+: y) : x = y := by
  obtain ⟨rest, whole⟩ := begins
  have decided := decides rest []
  rw [whole, append_nil] at decided
  have same : compareBytes y y = .eq := Std.ReflCmp.compare_self
  rw [same] at decided
  rw [decides.eq_iff]
  exact (then_eq_eq.mp decided.symm).1

end

theorem append {z w : List UInt8} {later : Ordering} (decides : Decides x y order) (next : Decides z w later) :
    Decides (x ++ z) (y ++ w) (order.then later) := by
  intro rest other
  rw [append_assoc, append_assoc, decides, next, then_assoc]

theorem nil : Decides [] [] .eq := fun _ _ => rfl

end Decides

def OrderCode {α : Type*} (cmp : α → α → Ordering) (code : α → List UInt8) : Prop :=
  ∀ a b, Decides (code a) (code b) (cmp a b)

namespace OrderCode

section

variable {α β : Type*} {cmp : α → α → Ordering} {code : α → List UInt8}

theorem of_eq {cmpOther : α → α → Ordering} {codeOther : α → List UInt8} (coded : OrderCode cmp code)
    (sameOrder : ∀ a b, cmpOther a b = cmp a b) (sameCode : ∀ a, codeOther a = code a) :
    OrderCode cmpOther codeOther := by
  intro a b
  rw [sameOrder, sameCode, sameCode]
  exact coded a b

theorem comap (coded : OrderCode cmp code) (f : β → α) :
    OrderCode (fun a b => cmp (f a) (f b)) fun a => code (f a) := fun a b => coded (f a) (f b)

theorem decides_tuple (coded : OrderCode cmp code) {as bs : List α} (arity : as.length = bs.length) :
    Decides (as.flatMap code) (bs.flatMap code) (List.compareLex cmp as bs) := by
  induction as generalizing bs with
  | nil =>
    cases bs with
    | nil => exact .nil
    | cons b bs => cases arity
  | cons a as ih =>
    cases bs with
    | nil => cases arity
    | cons b bs =>
      rw [flatMap_cons, flatMap_cons, List.compareLex_cons_cons]
      exact (coded a b).append (ih (Nat.succ.inj arity))

end

end OrderCode

section

def toBeBytes : Nat → Nat → List UInt8
  | 0, _ => []
  | width + 1, n => UInt8.ofNat (n / 256 ^ width) :: toBeBytes width (n % 256 ^ width)

theorem compare_digits {base a b : Nat} (positive : 0 < base) :
    compare a b = (compare (a / base) (b / base)).then (compare (a % base) (b % base)) := by
  have first := div_add_mod a base
  have second := div_add_mod b base
  have below := mod_lt a positive
  have belowOther := mod_lt b positive
  rcases lt_trichotomy (a / base) (b / base) with less | same | greater
  · have grown : base * (a / base + 1) ≤ base * (b / base) := Nat.mul_le_mul_left base less
    rw [compare_lt_iff_lt.mpr less, lt_then, compare_lt_iff_lt]
    rw [Nat.mul_add, Nat.mul_one] at grown
    omega
  · rw [same, compare_eq_iff_eq.mpr rfl, eq_then]
    rw [same] at first
    rcases lt_trichotomy (a % base) (b % base) with less | even | greater
    · rw [compare_lt_iff_lt.mpr less, compare_lt_iff_lt]
      omega
    · rw [compare_eq_iff_eq.mpr even, compare_eq_iff_eq]
      omega
    · rw [compare_gt_iff_gt.mpr greater, compare_gt_iff_gt]
      omega
  · have grown : base * (b / base + 1) ≤ base * (a / base) := Nat.mul_le_mul_left base greater
    rw [compare_gt_iff_gt.mpr greater, gt_then, compare_gt_iff_gt]
    rw [Nat.mul_add, Nat.mul_one] at grown
    omega

theorem compare_mul_add {base d e a b : Nat} (small : a < base) (smallOther : b < base) :
    compare (d * base + a) (e * base + b) = (compare d e).then (compare a b) := by
  have positive := Nat.zero_lt_of_lt small
  have split {digit value : Nat} (small : value < base) :
      (digit * base + value) / base = digit ∧ (digit * base + value) % base = value := by
    constructor
    · rw [Nat.add_comm, add_mul_div_right _ _ positive, div_eq_of_lt small, Nat.zero_add]
    · rw [Nat.add_comm, add_mul_mod_self_right, mod_eq_of_lt small]
  rw [compare_digits positive, (split small).1, (split small).2, (split smallOther).1, (split smallOther).2]

theorem compare_toNat (a b : UInt8) : compare a b = compare a.toNat b.toNat := by
  simp only [compare, compareOfLessAndEq, lt_iff_toNat_lt, ← UInt8.toNat_inj]

theorem compare_ofNat {a b : Nat} (fits : a < 256) (fitsOther : b < 256) :
    compare (UInt8.ofNat a) (UInt8.ofNat b) = compare a b := by
  rw [compare_toNat, toNat_ofNat_of_lt' fits, toNat_ofNat_of_lt' fitsOther]

theorem decides_toBeBytes {width a b : Nat} (fits : a < 256 ^ width) (fitsOther : b < 256 ^ width) :
    Decides (toBeBytes width a) (toBeBytes width b) (compare a b) := by
  intro rest other
  induction width generalizing a b with
  | zero =>
    obtain rfl : a = 0 := by simpa using fits
    obtain rfl : b = 0 := by simpa using fitsOther
    rfl
  | succ width ih =>
    have positive : 0 < 256 ^ width := Nat.pow_pos (by decide)
    rw [Nat.pow_succ] at fits fitsOther
    have digit : a / 256 ^ width < 256 := Nat.div_lt_of_lt_mul fits
    have digitOther : b / 256 ^ width < 256 := Nat.div_lt_of_lt_mul fitsOther
    rw [toBeBytes, toBeBytes, cons_append, cons_append, compareBytes_cons,
      compare_ofNat digit digitOther, ih (mod_lt _ positive) (mod_lt _ positive),
      ← then_assoc, ← compare_digits positive]

@[simp] theorem length_toBeBytes (width n : Nat) : (toBeBytes width n).length = width := by
  induction width generalizing n with
  | zero => rfl
  | succ width ih => rw [toBeBytes, length_cons, ih]

end

section

def escaped (bytes : List UInt8) : List UInt8 := bytes.flatMap (fun b => if b = 0 then [0, 255] else [b]) ++ [0, 0]

theorem escaped_cons (b : UInt8) (bytes : List UInt8) :
    escaped (b :: bytes) = (if b = 0 then [0, 255] else [b]) ++ escaped bytes := by
  unfold escaped
  rw [flatMap_cons, append_assoc]

theorem compare_zero {b : UInt8} (nonzero : b ≠ 0) : compare 0 b = .lt := by
  have positive : b.toNat ≠ 0 := fun zero => nonzero (UInt8.toNat_inj.mp zero)
  rw [compare_toNat, compare_lt_iff_lt]
  exact Nat.pos_of_ne_zero positive

theorem compare_zero_right {a : UInt8} (nonzero : a ≠ 0) : compare a 0 = .gt := by
  have positive : a.toNat ≠ 0 := fun zero => nonzero (UInt8.toNat_inj.mp zero)
  rw [compare_toNat, compare_gt_iff_gt]
  exact Nat.pos_of_ne_zero positive

theorem compareBytes_escaped (bytes others rest other : List UInt8) :
    compareBytes (escaped bytes ++ rest) (escaped others ++ other) =
      (compareBytes bytes others).then (compareBytes rest other) := by
  induction bytes generalizing others with
  | nil =>
    cases others with
    | nil => rfl
    | cons b others =>
      rw [escaped_cons]
      split_ifs with zero
      · rfl
      · change compareBytes (0 :: 0 :: rest) (b :: (escaped others ++ other)) = .lt
        rw [compareBytes_cons, compare_zero zero, lt_then]
  | cons a bytes ih =>
    cases others with
    | nil =>
      rw [escaped_cons]
      split_ifs with zero
      · rfl
      · change compareBytes (a :: (escaped bytes ++ rest)) (0 :: 0 :: other) = .gt
        rw [compareBytes_cons, compare_zero_right zero, gt_then]
    | cons b others =>
      rw [escaped_cons, escaped_cons, compareBytes_cons, then_assoc, ← ih others]
      split_ifs with zero zeroOther zeroOther
      · rw [zero, zeroOther]
        rfl
      · rw [zero, compare_zero zeroOther]
        change compareBytes (0 :: 255 :: (escaped bytes ++ rest)) (b :: (escaped others ++ other)) = .lt
        rw [compareBytes_cons, compare_zero zeroOther, lt_then]
      · rw [zeroOther, compare_zero_right zero]
        change compareBytes (a :: (escaped bytes ++ rest)) (0 :: 255 :: (escaped others ++ other)) = .gt
        rw [compareBytes_cons, compare_zero_right zero, gt_then]
      · exact compareBytes_cons _ _ _ _

theorem orderCode_escaped : OrderCode compareBytes escaped := fun a b => compareBytes_escaped a b

end

end RedDB.Library
