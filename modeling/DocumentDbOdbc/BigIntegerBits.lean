/-
The bits of `BigInteger` limbs, and the bit length of a number.

`GetBitLength` counts in 32 bits. `toNat_getBitLength` says of which number it
is the bit length; from `2 ^ 32` bits on it wraps, and numbers of that size can
look like `0` or `±1` (`getBitLength_eq_one_iff`).
-/
import DocumentDbOdbc.BigIntegerFacts
import Mathlib.Data.Nat.Size

namespace DocumentDbOdbc

open Limbs

namespace BigInteger

/-! ## Shifts -/

theorem toNat_shiftRight (x n : UInt32) (hn : n.toNat < 32) : (x >>> n).toNat = x.toNat / 2 ^ n.toNat := by
  rw [UInt32.toNat_shiftRight, Nat.mod_eq_of_lt hn, Nat.shiftRight_eq_div_pow]

theorem toNat_shiftLeft (x n : UInt32) (hn : n.toNat < 32) : (x <<< n).toNat = x.toNat * 2 ^ n.toNat % 2 ^ 32 := by
  rw [UInt32.toNat_shiftLeft, Nat.mod_eq_of_lt hn, Nat.shiftLeft_eq]

/-- What is shifted so far: the limb times the zeros counted, with a bit at or
above `bit`. -/
def Shifted (x : UInt32) (bit : Nat) (s : Nat × UInt32) : Prop :=
  1 ≤ s.1 ∧ s.2.toNat = x.toNat * 2 ^ (s.1 - 1) ∧ 2 ^ bit ≤ s.2.toNat

theorem skipZeros_spec {k x : UInt32} {s : Nat × UInt32} (hk : 0 < k.toNat) (hk' : k.toNat ≤ 16)
    (h : Shifted x (32 - 2 * k.toNat) s) : Shifted x (32 - k.toNat) (skipZeros k s) := by
  obtain ⟨n, i⟩ := s
  obtain ⟨hn, hi, hle⟩ := h
  dsimp only at hn hi hle
  have hsub : (32 - k).toNat = 32 - k.toNat :=
    UInt32.toNat_sub_of_le 32 k (UInt32.le_iff_toNat_le.mpr (by show k.toNat ≤ 32; omega))
  have hpow : 2 ^ k.toNat * 2 ^ (32 - k.toNat) = 2 ^ 32 := by
    rw [← Nat.pow_add]
    congr 1
    omega
  have hpow' : 2 ^ (32 - 2 * k.toNat) * 2 ^ k.toNat = 2 ^ (32 - k.toNat) := by
    rw [← Nat.pow_add]
    congr 1
    omega
  have hzero : i >>> (32 - k) = 0 ↔ i.toNat < 2 ^ (32 - k.toNat) := by
    rw [← UInt32.toNat_inj, toNat_shiftRight _ _ (by omega), hsub, UInt32.toNat_zero,
      Nat.div_eq_zero_iff_lt (Nat.two_pow_pos _)]
  unfold skipZeros
  dsimp only
  split
  · next h =>
    have hlt := hzero.mp h
    have hshift : (i <<< k).toNat = i.toNat * 2 ^ k.toNat := by
      rw [toNat_shiftLeft _ _ (by omega), Nat.mod_eq_of_lt]
      nlinarith [Nat.two_pow_pos k.toNat]
    refine ⟨Nat.le_add_right_of_le hn, ?_, ?_⟩
    · dsimp only
      rw [hshift, hi, Nat.mul_assoc, ← Nat.pow_add]
      congr 2
      omega
    · dsimp only
      rw [hshift, ← hpow']
      exact Nat.mul_le_mul_right _ hle
  · next h => exact ⟨hn, hi, Nat.le_of_not_lt fun hlt => h (hzero.mpr hlt)⟩

/-- The number of leading zeros brings the highest bit of a limb to the top. -/
theorem numberOfLeadingZerosU32_spec {x : UInt32} (h : x ≠ 0) :
    numberOfLeadingZerosU32 x < 32 ∧ 2 ^ 31 ≤ x.toNat * 2 ^ numberOfLeadingZerosU32 x ∧
      x.toNat * 2 ^ numberOfLeadingZerosU32 x < 2 ^ 32 := by
  have hx : 1 ≤ x.toNat := Nat.one_le_iff_ne_zero.mpr fun h0 => h (UInt32.toNat_inj.mp h0)
  have hshifted : Shifted x 30 (skipZeros 2 (skipZeros 4 (skipZeros 8 (skipZeros 16 (1, x))))) :=
    skipZeros_spec (k := 2) (by decide) (by decide) (skipZeros_spec (k := 4) (by decide) (by decide)
      (skipZeros_spec (k := 8) (by decide) (by decide) (skipZeros_spec (k := 16) (by decide) (by decide)
        ⟨Nat.le_refl 1, (Nat.mul_one _).symm, hx⟩)))
  unfold numberOfLeadingZerosU32
  rw [if_neg h]
  generalize skipZeros 2 (skipZeros 4 (skipZeros 8 (skipZeros 16 (1, x)))) = s at hshifted ⊢
  obtain ⟨n, i⟩ := s
  obtain ⟨hn, he, hle⟩ := hshifted
  dsimp only at hn he hle ⊢
  have hi := i.toNat_lt
  have htop : (i >>> 31).toNat = i.toNat / 2 ^ 31 := toNat_shiftRight i 31 (by decide)
  have hbounds : 2 ^ 31 ≤ x.toNat * 2 ^ (n - (i >>> 31).toNat) ∧ x.toNat * 2 ^ (n - (i >>> 31).toNat) < 2 ^ 32 := by
    rw [htop]
    rcases Nat.lt_or_ge i.toNat (2 ^ 31) with hlt | hge
    · have hdouble : x.toNat * 2 ^ n = 2 * i.toNat := by
        rw [he, show n = n - 1 + 1 by omega, Nat.pow_succ, Nat.add_sub_cancel]
        ring
      rw [Nat.div_eq_of_lt hlt, Nat.sub_zero, hdouble]
      omega
    · rw [show i.toNat / 2 ^ 31 = 1 by omega, ← he]
      omega
  refine ⟨?_, hbounds⟩
  refine (Nat.pow_lt_pow_iff_right (by decide : 1 < 2)).mp (lt_of_le_of_lt ?_ hbounds.2)
  exact Nat.le_mul_of_pos_left _ hx

theorem numberOfLeadingZerosU32_le (x : UInt32) : numberOfLeadingZerosU32 x ≤ 32 := by
  by_cases h : x = 0
  · rw [h]
    exact Nat.le_refl 32
  · exact (numberOfLeadingZerosU32_spec h).1.le

/-! ## Bit length -/

theorem size_eq {n k : Nat} (hlow : 2 ^ k ≤ n) (hhigh : n < 2 ^ (k + 1)) : n.size = k + 1 :=
  Nat.le_antisymm (Nat.size_le.mpr hhigh) (Nat.lt_size.mpr hlow)

/-- `BitLengthU32` counts the bits of a limb. -/
theorem bitLengthU32_eq {x : UInt32} (h : x ≠ 0) : bitLengthU32 x = x.toNat.size ∧ 1 ≤ bitLengthU32 x := by
  obtain ⟨hlt, hlow, hhigh⟩ := numberOfLeadingZerosU32_spec h
  rw [bitLengthU32]
  generalize numberOfLeadingZerosU32 x = n at hlt hlow hhigh
  obtain ⟨k, hk⟩ : ∃ k, 32 = k + 1 + n := ⟨31 - n, by omega⟩
  rw [show 31 = k + n by omega, Nat.pow_add] at hlow
  rw [hk, Nat.pow_add] at hhigh
  rw [show 32 - n = k + 1 by omega]
  exact ⟨(size_eq (Nat.le_of_mul_le_mul_right hlow (Nat.two_pow_pos n)) (Nat.lt_of_mul_lt_mul_right hhigh)).symm,
    Nat.le_add_left 1 k⟩

/-- The bits of limbs are those of the top limb, and 32 for each one below. -/
theorem size_value {l : MagArray} {x : UInt32} (h : x ≠ 0) :
    (value (l ++ [x])).size = bitLengthU32 x + l.length * 32 := by
  obtain ⟨hbits, hpos⟩ := bitLengthU32_eq h
  obtain ⟨k, hk⟩ : ∃ k, bitLengthU32 x = k + 1 := ⟨bitLengthU32 x - 1, by omega⟩
  rw [hk] at hbits ⊢
  have hlow : 2 ^ k ≤ x.toNat := Nat.lt_size.mp (by omega)
  have hhigh : x.toNat < 2 ^ (k + 1) := Nat.size_le.mp (by omega)
  have hpow : (2 ^ 32) ^ l.length = 2 ^ (l.length * 32) := by rw [← Nat.pow_mul, Nat.mul_comm]
  have hl := value_lt l
  rw [show k + 1 + l.length * 32 = k + l.length * 32 + 1 by omega]
  refine size_eq ?_ ?_
  · rw [value_concat, Nat.pow_add, hpow, Nat.mul_comm]
    exact (Nat.mul_le_mul_left _ hlow).trans (Nat.le_add_left _ _)
  · rw [show k + l.length * 32 + 1 = l.length * 32 + (k + 1) by omega, Nat.pow_add, value_concat, hpow]
    rw [hpow] at hl
    generalize 2 ^ (l.length * 32) = B at hl ⊢
    calc value l + B * x.toNat < B * (x.toNat + 1) := by
          rw [Nat.mul_succ]
          omega
      _ ≤ B * 2 ^ (k + 1) := Nat.mul_le_mul_left _ hhigh

/-- **The bit length**, modulo `2 ^ 32`. -/
theorem toNat_getBitLength {b : BigInteger} (h : Normalized b.mag) :
    b.getBitLength.toNat = (value b.mag).size % 2 ^ 32 := by
  obtain ⟨sign, mag⟩ := b
  dsimp only at h ⊢
  obtain rfl | ⟨l, x, rfl⟩ := eq_nil_or_concat mag
  · rfl
  · have hlength : (l ++ [x]).length - 1 = l.length := by simp
    rw [size_value (normalized_concat.mp h), getBitLength]
    simp only [List.getLast?_concat, hlength]
    exact UInt32.toNat_ofNat'

/-- A number of less than `2 ^ 32` bits with a bit length of one is `±1`. -/
theorem getBitLength_eq_one_iff {b : BigInteger} (h : Normalized b.mag) (hsize : (value b.mag).size < 2 ^ 32) :
    b.getBitLength = 1 ↔ value b.mag = 1 := by
  rw [← UInt32.toNat_inj, toNat_getBitLength h, Nat.mod_eq_of_lt hsize]
  constructor
  · intro hone
    have hlow : 2 ^ 0 ≤ value b.mag := Nat.lt_size.mp (by rw [hone]; decide)
    have hhigh : value b.mag < 2 ^ 1 := Nat.size_le.mp hone.le
    omega
  · intro hone
    rw [hone]
    rfl

/-- Limbs are 32 bits each. -/
theorem size_le_length (l : MagArray) : (value l).size ≤ 32 * l.length := by
  rw [Nat.size_le, Nat.pow_mul]
  exact value_lt l

end BigInteger

end DocumentDbOdbc
