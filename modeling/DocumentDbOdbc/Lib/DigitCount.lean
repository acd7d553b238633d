/-
The number of digits from the number of bits.

The logarithm is estimated by a product with a fixed-point constant, and one
power of the base tells the estimate from the one above it
(`Estimates.log_succ`). The constant is right for as many bits as two fractions
around the logarithm of two say (`estimates_of_ratios`).
-/
import Mathlib.Data.Nat.Log
import Mathlib.Data.Nat.Size
import Mathlib.Tactic.Linarith
import Mathlib.Tactic.Ring

namespace DigitCount

variable {base : Nat}

/-- A number of so many bits has `r` digits or one more. -/
def Estimates (base r bits : Nat) : Prop := base ^ r ≤ base * 2 ^ (bits - 1) ∧ 2 ^ bits ≤ base ^ (r + 1)

/-- One comparison decides. -/
theorem Estimates.log_succ {r x : Nat} (h : Estimates base r x.size) (hbase : 1 < base) (hx : 0 < x) :
    Nat.log base x + 1 = if x < base ^ r then r else r + 1 := by
  obtain ⟨hlow, hhigh⟩ := h
  have hsize : 0 < x.size := Nat.size_pos.mpr hx
  have hbits : 2 ^ (x.size - 1) ≤ x := Nat.lt_size.mp (by omega)
  have hx' : x < base ^ (r + 1) := x.lt_size_self.trans_le hhigh
  split
  · next hlt =>
    cases r with
    | zero =>
      rw [Nat.pow_zero] at hlt
      omega
    | succ r =>
      have hle : base ^ r ≤ x := by
        refine le_trans (Nat.le_of_mul_le_mul_left ?_ (by omega : 0 < base)) hbits
        rwa [← Nat.pow_succ']
      rw [Nat.log_eq_of_pow_le_of_lt_pow hle hlt]
  · next hge => rw [Nat.log_eq_of_pow_le_of_lt_pow (Nat.le_of_not_lt hge) hx']

/-! ## Fractions for a logarithm -/

/-- Powers compare as their exponents do at a fraction `p / q` that is not
below the logarithm of `a` to the base `b`. -/
theorem pow_le_pow_of_ratio {a b p q n k : Nat} (h : a ^ q ≤ b ^ p) (hb : 0 < b) (hq : q ≠ 0)
    (hle : n * p ≤ k * q) : a ^ n ≤ b ^ k := by
  refine (Nat.pow_le_pow_iff_left hq).mp ?_
  calc (a ^ n) ^ q = (a ^ q) ^ n := by rw [← Nat.pow_mul, ← Nat.pow_mul, Nat.mul_comm]
    _ ≤ (b ^ p) ^ n := Nat.pow_le_pow_left h n
    _ = b ^ (n * p) := by rw [← Nat.pow_mul, Nat.mul_comm]
    _ ≤ b ^ (k * q) := Nat.pow_le_pow_right hb hle
    _ = (b ^ k) ^ q := Nat.pow_mul b k q

/-- **The estimate** `m / 2 ^ s` of the logarithm, times one more than the bits,
rounded down. `p / q` is above the logarithm and `p' / q'` is below it. -/
theorem estimates_of_ratios {m s k p q p' q' : Nat} (hbase : 0 < base) (hq : 0 < q) (hp' : p' ≠ 0)
    (hupper : 2 ^ q ≤ base ^ p) (hlower : base ^ p' ≤ 2 ^ q') (hlow : (k + 1) * p * 2 ^ s ≤ (k + 2) * m * q)
    (hhigh : (k + 2) * m * q' ≤ (k * p' + q') * 2 ^ s) : Estimates base ((k + 2) * m / 2 ^ s) (k + 1) := by
  have hunit : 0 < 2 ^ s := Nat.two_pow_pos s
  have hfloor : (k + 2) * m / 2 ^ s * 2 ^ s ≤ (k + 2) * m := Nat.div_mul_le_self _ _
  have hceil : (k + 2) * m < ((k + 2) * m / 2 ^ s + 1) * 2 ^ s := (Nat.div_lt_iff_lt_mul hunit).mp (Nat.lt_succ_self _)
  generalize (k + 2) * m / 2 ^ s = r at hfloor hceil ⊢
  constructor
  · cases r with
    | zero => exact Nat.mul_pos hbase (Nat.two_pow_pos _)
    | succ r =>
      rw [Nat.pow_succ']
      refine Nat.mul_le_mul_left _ (pow_le_pow_of_ratio hlower (by decide) hp' ?_)
      refine Nat.le_of_mul_le_mul_right ?_ hunit
      have hscaled := Nat.mul_le_mul_right q' hfloor
      rw [Nat.add_sub_cancel]
      linarith
  · refine pow_le_pow_of_ratio hupper hbase hq.ne' (Nat.le_of_mul_le_mul_right ?_ hunit)
    have hscaled := Nat.mul_le_mul_right q hceil.le
    linarith

/-! ## The logarithm of two to the base ten -/

theorem two_pow_le_ten_pow : 2 ^ 254370 ≤ 10 ^ 76573 := by decide +kernel

theorem ten_pow_le_two_pow : 10 ^ 21306 ≤ 2 ^ 70777 := by decide +kernel

end DigitCount
