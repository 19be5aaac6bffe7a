import Mathlib

namespace RedDB.Library

open UInt8

def toLeBytes : Nat → Nat → List UInt8
  | 0, _ => []
  | width + 1, n => ofNat n :: toLeBytes width (n / 256)

def fromLeBytes : List UInt8 → Nat
  | [] => 0
  | b :: bytes => b.toNat + 256 * fromLeBytes bytes

@[simp] theorem length_toLeBytes (width n : Nat) : (toLeBytes width n).length = width := by
  induction width generalizing n with
  | zero => rfl
  | succ width ih => simp [toLeBytes, ih]

theorem fromLeBytes_toLeBytes {width n : Nat} (fits : n < 256 ^ width) : fromLeBytes (toLeBytes width n) = n := by
  induction width generalizing n with
  | zero =>
    rw [Nat.pow_zero] at fits
    simp only [toLeBytes, fromLeBytes]
    omega
  | succ width ih =>
    have smaller : n / 256 < 256 ^ width := by
      rw [Nat.pow_succ] at fits
      exact Nat.div_lt_of_lt_mul (by omega)
    have low : (ofNat n).toNat = n % 256 := by simp
    simp only [toLeBytes, fromLeBytes, low, ih smaller]
    omega

theorem toLeBytes_fromLeBytes {width : Nat} {bytes : List UInt8} (length : bytes.length = width) :
    toLeBytes width (fromLeBytes bytes) = bytes := by
  induction bytes generalizing width with
  | nil =>
    subst length
    rfl
  | cons b bytes ih =>
    obtain ⟨width, rfl⟩ : ∃ n, width = n + 1 := ⟨bytes.length, length.symm⟩
    have small := b.toNat_lt
    have low : ofNat (b.toNat + 256 * fromLeBytes bytes) = b := by
      apply UInt8.toNat_inj.mp
      simp only [toNat_ofNat']
      omega
    have high : (b.toNat + 256 * fromLeBytes bytes) / 256 = fromLeBytes bytes := by omega
    rw [fromLeBytes, toLeBytes, low, high, ih (by simpa using length)]

theorem fromLeBytes_lt (bytes : List UInt8) : fromLeBytes bytes < 256 ^ bytes.length := by
  induction bytes with
  | nil => simp [fromLeBytes]
  | cons b bytes ih =>
    have small := b.toNat_lt
    simp only [fromLeBytes, List.length_cons, Nat.pow_succ]
    omega

end RedDB.Library
