/-
`BigInteger::GetPrecision` and `bits::DigitLength`: the number of decimal
digits.

Both multiply one more than the bit length by a constant near the logarithm of
two, `646456993 / 2 ^ 31` and `1233 / 2 ^ 12`, and compare with one power of
ten. The first constant is below the logarithm by less than `2 ^ -33`, a quarter
of a digit for `2 ^ 31` bits (`estimates_precision`).
-/
import DocumentDbOdbc.BigIntegerRun
import DocumentDbOdbc.Lib.DigitCount

namespace DocumentDbOdbc

open Limbs Numeral DigitCount

/-! ## The table -/

/-- An index of the table of `TenPowerU64`. -/
def InTenPowers (n : Int32) : Prop := 0 ≤ n ∧ n < 20

instance (n : Int32) : Decidable (InTenPowers n) := inferInstanceAs (Decidable (_ ∧ _))

namespace Bits

/-- `r` in `DigitLength`. -/
def digitEstimate (x : UInt64) : Int32 := ((64 - Int32.ofNat (numberOfLeadingZerosU64 x) + 1) * 1233) >>> 12

/-- `bits::DigitLength`, as it reads the table: `DocumentDbOdbc.digitLength`,
which the buffers use, compares with the power itself. -/
def digitLength (outside : Outside) (x : UInt64) : Int32 :=
  if x < 10 then 1
  else
    let r := digitEstimate x
    if r = 20 ∨ x < tenPowerU64 outside r then r else r + 1

/-- What `DigitLength` calls `TenPowerU64` with. -/
def digitLengthIndexes (x : UInt64) : List Int32 :=
  if x < 10 then [] else if digitEstimate x = 20 then [] else [digitEstimate x]

end Bits

namespace BigInteger

/-- `r` in `GetPrecision`. -/
def precisionEstimate (b : BigInteger) : Int32 :=
  (((b.getBitLength.toUInt64 + 1) * 646456993) >>> 31).toUInt32.toInt32

/-- What `GetPowerOfTen` calls `TenPowerU64` with. -/
def getPowerOfTenIndexes (pow : Int32) : List Int32 := if pow < 20 then [pow] else []

/-- What `GetPrecision` calls `TenPowerU64` with. -/
def getPrecisionIndexes (b : BigInteger) : List Int32 :=
  if b.mag.length = 0 then [] else getPowerOfTenIndexes b.precisionEstimate

end BigInteger

/-! ## Leading zeros of a double word -/

/-- The last step of `NumberOfLeadingZerosU64`. -/
def countTopBit (s : Nat × UInt32) : Nat := s.1 - (s.2 >>> 31).toNat

/-- The steps in between. -/
def skipAllZeros (s : Nat × UInt32) : Nat × UInt32 := skipZeros 2 (skipZeros 4 (skipZeros 8 (skipZeros 16 s)))

/-- A step of the source, whatever follows it. -/
theorem ite_skipZeros (k : UInt32) (f : Nat × UInt32 → Nat) (n : Nat) (x : UInt32) :
    (if x >>> (32 - k) = 0 then f (n + k.toNat, x <<< k) else f (n, x)) = f (skipZeros k (n, x)) := by
  unfold skipZeros
  dsimp only
  split <;> rfl

/-- The zeros are shifted out of the word with the highest bit. -/
theorem numberOfLeadingZerosU64_eq {i : UInt64} (h : i ≠ 0) :
    numberOfLeadingZerosU64 i = countTopBit (skipAllZeros
      (if (i >>> 32).toUInt32 = 0 then (33, i.toUInt32) else (1, (i >>> 32).toUInt32))) := by
  have h2 (n : Nat) (x : UInt32) :
      (if x >>> 30 = 0 then n + 2 - (x <<< 2 >>> 31).toNat else n - (x >>> 31).toNat) =
        countTopBit (skipZeros 2 (n, x)) :=
    ite_skipZeros 2 countTopBit n x
  have h4 (n : Nat) (x : UInt32) :
      (if x >>> 28 = 0 then countTopBit (skipZeros 2 (n + 4, x <<< 4)) else countTopBit (skipZeros 2 (n, x))) =
        countTopBit (skipZeros 2 (skipZeros 4 (n, x))) :=
    ite_skipZeros 4 (fun s => countTopBit (skipZeros 2 s)) n x
  have h8 (n : Nat) (x : UInt32) :
      (if x >>> 24 = 0 then countTopBit (skipZeros 2 (skipZeros 4 (n + 8, x <<< 8)))
        else countTopBit (skipZeros 2 (skipZeros 4 (n, x)))) =
        countTopBit (skipZeros 2 (skipZeros 4 (skipZeros 8 (n, x)))) :=
    ite_skipZeros 8 (fun s => countTopBit (skipZeros 2 (skipZeros 4 s))) n x
  have h16 (n : Nat) (x : UInt32) :
      (if x >>> 16 = 0 then countTopBit (skipZeros 2 (skipZeros 4 (skipZeros 8 (n + 16, x <<< 16))))
        else countTopBit (skipZeros 2 (skipZeros 4 (skipZeros 8 (n, x))))) =
        countTopBit (skipAllZeros (n, x)) :=
    ite_skipZeros 16 (fun s => countTopBit (skipZeros 2 (skipZeros 4 (skipZeros 8 s)))) n x
  unfold numberOfLeadingZerosU64
  simp only [Id.run, if_neg h, pure, h2, h4, h8, h16]
  split <;> rfl

theorem skipZeros_add (k : UInt32) (m n : Nat) (x : UInt32) :
    skipZeros k (m + n, x) = (m + (skipZeros k (n, x)).1, (skipZeros k (n, x)).2) := by
  unfold skipZeros
  dsimp only
  split
  · rw [Nat.add_assoc]
  · rfl

theorem le_skipZeros (k : UInt32) (s : Nat × UInt32) : s.1 ≤ (skipZeros k s).1 := by
  obtain ⟨n, x⟩ := s
  unfold skipZeros
  dsimp only
  split
  · exact Nat.le_add_right n _
  · exact Nat.le_refl n

/-- Zeros counted before are added. -/
theorem countTopBit_skipAllZeros {x : UInt32} (h : x ≠ 0) (m : Nat) :
    countTopBit (skipAllZeros (m + 1, x)) = m + numberOfLeadingZerosU32 x := by
  have hadd : skipAllZeros (m + 1, x) = (m + (skipAllZeros (1, x)).1, (skipAllZeros (1, x)).2) := by
    unfold skipAllZeros
    rw [skipZeros_add 16, skipZeros_add 8, skipZeros_add 4, skipZeros_add 2]
  have hpos : 1 ≤ (skipAllZeros (1, x)).1 :=
    (le_skipZeros 16 (1, x)).trans ((le_skipZeros 8 _).trans ((le_skipZeros 4 _).trans (le_skipZeros 2 _)))
  have hbit : ((skipAllZeros (1, x)).2 >>> 31).toNat ≤ 1 := by
    have hlt := (skipAllZeros (1, x)).2.toNat_lt
    rw [BigInteger.toNat_shiftRight _ _ (by decide)]
    show _ / 2 ^ 31 ≤ 1
    omega
  have hcount : numberOfLeadingZerosU32 x = countTopBit (skipAllZeros (1, x)) := by
    rw [numberOfLeadingZerosU32, if_neg h]
    rfl
  rw [hcount, hadd, countTopBit, countTopBit, Nat.add_sub_assoc (hbit.trans hpos)]

/-- **The bit length** of a double word. -/
theorem numberOfLeadingZerosU64_add_size {i : UInt64} (h : i ≠ 0) :
    numberOfLeadingZerosU64 i + i.toNat.size = 64 := by
  have hlow : i.toUInt32.toNat = i.toNat % 2 ^ 32 := UInt64.toNat_toUInt32 i
  have hhigh : (i >>> 32).toUInt32.toNat = i.toNat / 2 ^ 32 := BigInteger.highWord_toNat i
  rw [numberOfLeadingZerosU64_eq h]
  split
  · next h0 =>
    rw [h0, UInt32.toNat_zero] at hhigh
    have hword : i.toUInt32.toNat = i.toNat := by omega
    have hne : i.toUInt32 ≠ 0 := fun hzero => h (UInt64.toNat_inj.mp (by rw [← hword, hzero]; rfl))
    have hbits := (BigInteger.bitLengthU32_eq hne).1
    have hle := BigInteger.numberOfLeadingZerosU32_le i.toUInt32
    rw [countTopBit_skipAllZeros hne 32, ← hword, ← hbits, bitLengthU32]
    omega
  · next hne =>
    have hvalue : value ([i.toUInt32] ++ [(i >>> 32).toUInt32]) = i.toNat := by
      rw [value_concat, value_cons, value_nil, hlow, hhigh, List.length_singleton]
      omega
    have hle := BigInteger.numberOfLeadingZerosU32_le (i >>> 32).toUInt32
    rw [countTopBit_skipAllZeros hne 0, ← hvalue, BigInteger.size_value hne, bitLengthU32, List.length_singleton]
    omega

/-! ## The estimates -/

/-- The constant of `DigitLength` is right for all double words. -/
theorem estimates_digit {k : Nat} (h : k < 64) : Estimates 10 ((k + 2) * 1233 / 2 ^ 12) (k + 1) :=
  estimates_of_ratios (by decide) (by decide) (by decide) two_pow_le_ten_pow ten_pow_le_two_pow (by omega) (by omega)

/-- That of `GetPrecision` is right below `2 ^ 31` bits. -/
theorem estimates_precision {k : Nat} (h : k < 2 ^ 31) : Estimates 10 ((k + 2) * 646456993 / 2 ^ 31) (k + 1) :=
  estimates_of_ratios (by decide) (by decide) (by decide) two_pow_le_ten_pow ten_pow_le_two_pow (by omega) (by omega)

/-- The digits of a number, from an estimate and the comparison with its power
of ten. -/
theorem toInt_of_estimates {r x : Nat} {c : Prop} [Decidable c] (h : Estimates 10 r x.size) (hx : 0 < x)
    (hr : r < 2 ^ 31 - 1) (hc : c ↔ x < 10 ^ r) :
    (if c then Int32.ofNat r else Int32.ofNat r + 1).toInt = (decimal x).length := by
  have hint : (Int32.ofNat r).toInt = r := toInt32_ofNat (by omega)
  have hone : (1 : Int32).toInt = 1 := rfl
  rw [length_decimal, h.log_succ (by decide) hx]
  split
  · next hlt => rw [if_pos (hc.mp hlt), hint]
  · next hge =>
    rw [if_neg (mt hc.mpr hge), toInt32_add (by omega) (by omega), hint]
    rfl

/-- The bits of a number that is not zero. -/
theorem exists_size_eq {x : Nat} (h : 0 < x) : ∃ k, x.size = k + 1 :=
  Nat.exists_eq_add_one_of_ne_zero (Nat.size_pos.mpr h).ne'

theorem inTenPowers_ofNat {r : Nat} (h : r < 20) : InTenPowers (Int32.ofNat r) := by
  rw [InTenPowers, Int32.le_iff_toInt_le, Int32.lt_iff_toInt_lt, toInt32_ofNat (by omega)]
  exact ⟨Int.natCast_nonneg r, by show (r : Int) < 20; omega⟩

namespace Bits

/-- The estimate is that of the bit length, and an index of the table. -/
theorem digitEstimate_spec {x : UInt64} (h : ¬ x < 10) :
    ∃ r < 20, digitEstimate x = Int32.ofNat r ∧ ((64 - numberOfLeadingZerosU64 x + 1) * 1233) >>> 12 = r ∧
      Estimates 10 r x.toNat.size := by
  have hall : ∀ k < 65, ((64 - Int32.ofNat (64 - k) + 1) * 1233) >>> 12 = Int32.ofNat ((k + 1) * 1233 / 2 ^ 12) := by
    decide
  have hpos : 0 < x.toNat := Nat.pos_of_ne_zero fun h0 => h (UInt64.lt_iff_toNat_lt.mpr (by rw [h0]; decide))
  have hzeros := numberOfLeadingZerosU64_add_size fun h0 : x = 0 => hpos.ne' (by rw [h0]; rfl)
  obtain ⟨k, hk⟩ := exists_size_eq hpos
  have hcount : numberOfLeadingZerosU64 x = 64 - (k + 1) := by omega
  refine ⟨(k + 2) * 1233 / 2 ^ 12, by omega, ?_, ?_, ?_⟩
  · rw [digitEstimate, hcount]
    exact hall (k + 1) (by omega)
  · rw [hcount, Nat.shiftRight_eq_div_pow, show 64 - (64 - (k + 1)) + 1 = k + 2 by omega]
  · rw [hk]
    exact estimates_digit (by omega)

/-- **`DigitLength`** counts the digits, and reads the table at most once,
inside it. -/
theorem digitLength_spec (outside : Outside) (x : UInt64) :
    (digitLength outside x).toInt = (decimal x.toNat).length ∧ ∀ n ∈ digitLengthIndexes x, InTenPowers n := by
  by_cases hsmall : x < 10
  · rw [digitLength, digitLengthIndexes, if_pos hsmall, if_pos hsmall,
      decimal_of_lt (UInt64.lt_iff_toNat_lt.mp hsmall)]
    exact ⟨rfl, fun n hn => nomatch hn⟩
  · obtain ⟨r, hr, hestimate, -, hestimates⟩ := digitEstimate_spec hsmall
    have hge : 10 ≤ x.toNat := Nat.le_of_not_lt fun hlt => hsmall (UInt64.lt_iff_toNat_lt.mpr hlt)
    have htable := inTenPowers_ofNat hr
    have hnot : Int32.ofNat r ≠ 20 := fun h20 => absurd htable.2 (by rw [h20]; decide)
    have hpower : (tenPowerU64 outside (Int32.ofNat r)).toNat = 10 ^ r := by
      rw [BigInteger.toNat_tenPowerU64 outside htable.1 htable.2, toInt32_ofNat (by omega), Int.toNat_natCast]
    rw [digitLength, digitLengthIndexes, if_neg hsmall, if_neg hsmall, hestimate]
    refine ⟨toInt_of_estimates hestimates (by omega) (by omega) ?_, fun n hn => ?_⟩
    · rw [or_iff_right hnot, UInt64.lt_iff_toNat_lt, hpower]
    · rw [if_neg hnot, List.mem_singleton] at hn
      exact hn ▸ htable

/-- So does the function of the buffers. -/
theorem toInt_digitLength (outside : Outside) (x : UInt64) :
    (digitLength outside x).toInt = DocumentDbOdbc.digitLength x := by
  by_cases hsmall : x < 10
  · rw [digitLength, DocumentDbOdbc.digitLength, if_pos hsmall, if_pos hsmall]
    rfl
  · obtain ⟨r, hr, -, hshift, hestimates⟩ := digitEstimate_spec hsmall
    have hge : 10 ≤ x.toNat := Nat.le_of_not_lt fun hlt => hsmall (UInt64.lt_iff_toNat_lt.mpr hlt)
    rw [(digitLength_spec outside x).1, length_decimal, hestimates.log_succ (by decide) (by omega),
      DocumentDbOdbc.digitLength, if_neg hsmall, hshift]
    simp only [or_iff_right (show r ≠ 20 by omega)]

end Bits

namespace BigInteger

theorem precisionEstimate_eq {b : BigInteger} (h : Normalized b.mag) (hsize : (value b.mag).size < 2 ^ 31 - 1) :
    b.precisionEstimate = Int32.ofNat (((value b.mag).size + 1) * 646456993 / 2 ^ 31) := by
  have hbits : b.getBitLength.toUInt64.toNat = (value b.mag).size := by
    rw [UInt32.toNat_toUInt64, toNat_getBitLength h]
    omega
  have hshift : (((b.getBitLength.toUInt64 + 1) * 646456993) >>> 31).toNat =
      ((value b.mag).size + 1) * 646456993 / 2 ^ 31 := by
    rw [UInt64.toNat_shiftRight, UInt64.toNat_mul, UInt64.toNat_add, hbits, Nat.shiftRight_eq_div_pow]
    show ((value b.mag).size + 1) % 2 ^ 64 * 646456993 % 2 ^ 64 / 2 ^ 31 = _
    omega
  rw [precisionEstimate, ← hshift]
  rfl

/-- **`GetPrecision`** counts the digits, and reads the table at most once,
inside it. -/
theorem getPrecision_spec (outside : Outside) {b : BigInteger} (h : Normalized b.mag)
    (hsize : (value b.mag).size < 2 ^ 31 - 1) :
    (b.getPrecision outside).toInt = (decimal (value b.mag)).length ∧
      ∀ n ∈ b.getPrecisionIndexes, InTenPowers n := by
  have hunfold : b.getPrecision outside = if b.mag.length = 0 then 1 else
      if b.compare (getPowerOfTen outside b.precisionEstimate) true < 0 then b.precisionEstimate
      else b.precisionEstimate + 1 := rfl
  by_cases hnil : b.mag.length = 0
  · rw [hunfold, getPrecisionIndexes, if_pos hnil, if_pos hnil, List.length_eq_zero_iff.mp hnil, value_nil]
    exact ⟨rfl, fun n hn => nomatch hn⟩
  · have hpos : 0 < value b.mag := h.value_pos (mt List.length_eq_zero_iff.mpr hnil)
    obtain ⟨k, hk⟩ := exists_size_eq hpos
    have hestimates : Estimates 10 ((k + 2) * 646456993 / 2 ^ 31) (value b.mag).size :=
      hk ▸ estimates_precision (by omega)
    have hr : (k + 2) * 646456993 / 2 ^ 31 < 2 ^ 31 - 1 := by omega
    rw [hunfold, getPrecisionIndexes, if_neg hnil, if_neg hnil, precisionEstimate_eq h hsize, hk]
    generalize (k + 2) * 646456993 / 2 ^ 31 = r at hestimates hr ⊢
    have hint : (Int32.ofNat r).toInt = r := toInt32_ofNat (by omega)
    have hnonneg : 0 ≤ Int32.ofNat r := by
      rw [Int32.le_iff_toInt_le, hint]
      exact Int.natCast_nonneg r
    have hpower : value (getPowerOfTen outside (Int32.ofNat r)).mag = 10 ^ r := by
      rw [(value_getPowerOfTen outside hnonneg).2, hint, Int.toNat_natCast]
    refine ⟨toInt_of_estimates hestimates hpos hr ?_, fun n hn => ?_⟩
    · rw [compare_ignoreSign h (canonical_getPowerOfTen outside _).1.normalized, hpower, ordering]
      split
      · omega
      · split <;> omega
    · rw [getPowerOfTenIndexes] at hn
      split at hn
      · next hlt => exact List.mem_singleton.mp hn ▸ ⟨hnonneg, hlt⟩
      · exact nomatch hn

/-- So it does for every object of a program, whatever its calls. -/
theorem reachable_getPrecision {condition : Objects → Operation → Prop} {s : Objects} (h : Reachable condition s)
    (outside : Outside) (x : Nat) (hsize : (s x).toInt.natAbs.size < 2 ^ 31 - 1) :
    ((s x).getPrecision outside).toInt = (decimal (s x).toInt.natAbs).length := by
  have hnormal := reachable_normal h x
  rw [hnormal.natAbs_toInt] at hsize ⊢
  exact (getPrecision_spec outside hnormal.normalized hsize).1

end BigInteger

/-- **The digit counts.** Both functions count the decimal digits, one digit for
zero, whatever stands around the table of powers, which they do not leave; so
they agree on the magnitudes of 64 bits. -/
theorem digitCounts_exact (outside : Outside) :
    (∀ b : BigInteger, Normalized b.mag → (value b.mag).size < 2 ^ 31 - 1 →
      (b.getPrecision outside).toInt = (decimal (value b.mag)).length ∧
        ∀ n ∈ b.getPrecisionIndexes, InTenPowers n) ∧
    (∀ x : UInt64, (Bits.digitLength outside x).toInt = (decimal x.toNat).length ∧
      ∀ n ∈ Bits.digitLengthIndexes x, InTenPowers n) ∧
    ∀ (b : BigInteger) (x : UInt64), Normalized b.mag → value b.mag = x.toNat →
      b.getPrecision outside = Bits.digitLength outside x := by
  refine ⟨fun b h hsize => b.getPrecision_spec outside h hsize, Bits.digitLength_spec outside,
    fun b x h hvalue => ?_⟩
  have hsize : x.toNat.size ≤ 64 := Nat.size_le.mpr x.toNat_lt
  rw [← Int32.toInt_inj, (BigInteger.getPrecision_spec outside h (hvalue ▸ by omega)).1,
    (Bits.digitLength_spec outside x).1, hvalue]

/-- `-(10 ^ 20)` has 21 digits; on `10 ^ 19` the two agree. -/
theorem digitCounts_exact_ten_pow :
    (⟨-1, [1661992960, 1808227885, 5]⟩ : BigInteger).toInt = -10 ^ 20 ∧
      ((⟨-1, [1661992960, 1808227885, 5]⟩ : BigInteger).getPrecision .zeros).toInt = 21 ∧
      (⟨1, [2313682944, 2328306436]⟩ : BigInteger).getPrecision .zeros =
        Bits.digitLength .zeros 10000000000000000000 := by
  have hvalue : value [1661992960, 1808227885, 5] = 10 ^ 20 := by decide
  refine ⟨by decide, ?_, (digitCounts_exact .zeros).2.2 _ _ (by decide) (by decide)⟩
  rw [((digitCounts_exact .zeros).1 _ (by decide) ((BigInteger.size_le_length _).trans_lt (by decide))).1, hvalue,
    length_decimal, Nat.log_pow (by decide)]
  rfl

end DocumentDbOdbc
