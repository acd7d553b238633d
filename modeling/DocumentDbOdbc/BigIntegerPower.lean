/-
`Multiply`, `Pow` and `GetPowerOfTen` against the integers.

`Pow` takes a bit length of zero or one for `0` and `±1`. The bit length is
counted in 32 bits, so a number whose bit length is one modulo `2 ^ 32` is
returned unchanged (`hugePower`). No power of ten is such a number
(`getBitLength_getPowerOfTen`).
-/
import DocumentDbOdbc.BigIntegerRun

namespace DocumentDbOdbc

open Limbs

namespace BigInteger

theorem Normal.toInt_eq_zero_iff {b : BigInteger} (h : b.Normal) : b.toInt = 0 ↔ b.mag = [] := by
  rw [← Int.natAbs_eq_zero, h.natAbs_toInt, value_eq_zero_iff h.normalized]

theorem Normal.nonzero {b : BigInteger} (h : b.Normal) (hne : b.mag ≠ []) : b.Nonzero :=
  ⟨⟨h.sign, h.normalized, fun hnil => absurd hnil hne⟩, hne⟩

/-- The bit length tells `0` and `±1` from the numbers above. -/
def BitsTell (b : BigInteger) : Prop := (value b.mag).size % 2 ^ 32 ≤ 1 → value b.mag ≤ 1

/-- An exponent that is even for `%`. -/
theorem int32_mod_two {e : Int32} (h : 0 ≤ e) : e % 2 = 0 ↔ e.toInt.toNat % 2 = 0 := by
  have hpos := Int32.le_iff_toInt_le.mp h
  rw [Int32.toInt_zero] at hpos
  rw [← Int32.toInt_inj, Int32.toInt_mod, Int32.toInt_zero, show (2 : Int32).toInt = 2 from rfl,
    Int.tmod_eq_emod_of_nonneg hpos]
  omega

/-- The path for `±1`. -/
theorem pow_of_unit {b : BigInteger} (h : b.Normal) (hone : value b.mag = 1) {e : Int32} (he : 0 ≤ e) :
    (if e % 2 = 0 ∧ b.sign < 0 then { b with sign := -b.sign } else b).toInt = b.toInt ^ e.toInt.toNat := by
  have htoInt : ∀ s : Int, (⟨s, b.mag⟩ : BigInteger).toInt = s := fun s => by
    rw [toInt, hone, Nat.cast_one, Int.mul_one]
  have hb : b.toInt = b.sign := htoInt b.sign
  simp only [int32_mod_two he]
  rw [hb]
  generalize e.toInt.toNat = n
  rcases h.sign with hs | hs
  · rw [if_neg (by rw [hs]; omega), hb, hs, one_pow]
  · rcases Nat.mod_two_eq_zero_or_one n with hn | hn
    · rw [if_pos ⟨hn, by rw [hs]; omega⟩, htoInt, hs, Even.neg_one_pow (Nat.even_iff.mpr hn), Int.neg_neg]
    · rw [if_neg (by omega), hb, hs, Odd.neg_one_pow (Nat.odd_iff.mpr hn)]

/-- `Pow` by squaring, and its paths for `0` and `±1`. -/
theorem toInt_pow {b : BigInteger} (h : b.Normal) {e : Int32} (he : 0 ≤ e) (hzero : ¬ (b.toInt = 0 ∧ e = 0))
    (hbits : e = 1 ∨ b.BitsTell) : (b.pow e).toInt = b.toInt ^ e.toInt.toNat := by
  have hlength := toNat_getBitLength h.normalized
  have hself : e = 1 → b.toInt = b.toInt ^ e.toInt.toNat := by
    rintro rfl
    exact (pow_one _).symm
  unfold pow
  rw [if_neg (Int32.not_lt.mpr he)]
  split
  · next h0 =>
    rcases hbits with hone | htell
    · exact hself hone
    · -- Only zero has no bits.
      have hsize : (value b.mag).size % 2 ^ 32 = 0 := by rw [← hlength, h0]; rfl
      have hle := htell (by omega)
      have hv : value b.mag = 0 := by
        rcases Nat.le_one_iff_eq_zero_or_eq_one.mp hle with hv | hv
        · exact hv
        · rw [hv] at hsize
          cases hsize
      have hzero' := h.toInt_eq_zero_iff.mpr ((value_eq_zero_iff h.normalized).mp hv)
      have he0 : e.toInt.toNat ≠ 0 := fun h0 => hzero ⟨hzero', by
        have hpos := Int32.le_iff_toInt_le.mp he
        rw [Int32.toInt_zero] at hpos
        rw [← Int32.toInt_inj, Int32.toInt_zero]
        omega⟩
      rw [hzero', zero_pow he0]
  · next h0 =>
    have hne : b.mag ≠ [] := fun hnil => h0 (by simp [getBitLength, hnil])
    split
    · next h1 =>
      rcases hbits with hone | htell
      · rw [if_neg (by rw [hone]; exact fun h => absurd h.1 (by decide))]
        exact hself hone
      · have hsize : (value b.mag).size % 2 ^ 32 = 1 := by rw [← hlength, h1]; rfl
        have hle := htell (by omega)
        have hpos := h.normalized.value_pos hne
        exact pow_of_unit h (by omega) he
    · have hloop := (powLoop_spec (toNat_lt_of_int32 e) nonzero_one (h.nonzero hne)).2
      rw [hloop, toInt_assignInt64]
      exact Int.one_mul _

/-- A number that looks like `0` or `±1` keeps its magnitude. -/
theorem natAbs_pow_of_wrapped {b : BigInteger} (h : b.Normal) {e : Int32} (he : 0 ≤ e)
    (hwrap : (value b.mag).size % 2 ^ 32 ≤ 1) : (b.pow e).toInt.natAbs = value b.mag := by
  have hlength := toNat_getBitLength h.normalized
  unfold pow
  rw [if_neg (Int32.not_lt.mpr he)]
  split
  · exact h.natAbs_toInt
  · next h0 =>
    have hne : b.getBitLength.toNat ≠ 0 := fun hbits => h0 (UInt32.toNat_inj.mp hbits)
    have hone : b.getBitLength = 1 := UInt32.toNat_inj.mp (by rw [UInt32.toNat_one]; omega)
    rw [if_pos hone]
    split
    · have hneg : (⟨-b.sign, b.mag⟩ : BigInteger).toInt = -b.toInt := Int.neg_mul _ _
      rw [hneg, Int.natAbs_neg, h.natAbs_toInt]
    · exact h.natAbs_toInt

/-- `Pow` is the power for the exponent one, and where the bit length tells. -/
theorem toInt_pow_iff {b : BigInteger} (h : b.Normal) {e : Int32} (he : 0 ≤ e) (hzero : ¬ (b.toInt = 0 ∧ e = 0)) :
    (b.pow e).toInt = b.toInt ^ e.toInt.toNat ↔ e = 1 ∨ b.BitsTell := by
  refine ⟨fun hpow => ?_, toInt_pow h he hzero⟩
  rcases Classical.em b.BitsTell with htell | htell
  · exact .inr htell
  · left
    unfold BitsTell at htell
    push Not at htell
    obtain ⟨hwrap, hlarge⟩ := htell
    -- The magnitude stays, and no other power of a number above one is that number.
    have habs := natAbs_pow_of_wrapped h he hwrap
    rw [hpow, Int.natAbs_pow, h.natAbs_toInt] at habs
    have hexp : e.toInt.toNat = 1 := Nat.pow_right_injective hlarge (habs.trans (Nat.pow_one _).symm)
    exact Int32.toInt_inj.mp (by rw [show (1 : Int32).toInt = 1 from rfl]; omega)

/-- **Multiplication and powers are exact**: the product into any object, every
power of ten, and the power of a number for the exponent one or where the bit
length tells it from `0` and `±1`, and for no other. -/
theorem multiply_pow_exact_iff (outside : Outside) :
    (∀ (s : Objects) (x other res : Nat),
      ((Operation.multiply x other res).run outside s res).toInt = (s x).toInt * (s other).toInt) ∧
    (∀ (b : BigInteger) (e : Int32), b.Normal → 0 ≤ e → ¬ (b.toInt = 0 ∧ e = 0) →
      ((b.pow e).toInt = b.toInt ^ e.toInt.toNat ↔ e = 1 ∨ b.BitsTell)) ∧
    ∀ k : Int32, 0 ≤ k → (getPowerOfTen outside k).toInt = 10 ^ k.toInt.toNat := by
  refine ⟨fun s x other res => ?_, fun b e h he hzero => toInt_pow_iff h he hzero, fun k hk => (getPowerOfTen_spec outside hk).2⟩
  simp only [Operation.run, Function.update_self]
  exact toInt_multiply (s x) (s other)

/-- `(-3) ^ 41`, and `10 ^ 20` past the table. -/
theorem multiply_pow_exact_iff_odd : ((assignInt64 (-3)).pow 41).toInt = (-3) ^ 41 ∧
    (getPowerOfTen .zeros 20).toInt = 10 ^ 20 := by
  refine ⟨?_, (multiply_pow_exact_iff .zeros).2.2 20 (by decide)⟩
  exact ((multiply_pow_exact_iff .zeros).2.1 (assignInt64 (-3)) 41 (canonical_assignInt64 (-3)).normal (by decide)
    (by decide)).mpr (.inr (fun h => absurd h (by decide)))

/-- `2 ^ (2 ^ 32)`, a number of `2 ^ 32 + 1` bits. -/
def hugePower : BigInteger := ⟨1, List.replicate 134217728 0 ++ [1]⟩

/-- A power of `2 ^ 32` whose bit length wraps to one. -/
theorem pow_two_of_wrapped {n : Nat} (hn : 0 < n) (hbits : UInt32.ofNat (1 + n * 32) = 1) :
    (⟨1, List.replicate n 0 ++ [1]⟩ : BigInteger).Canonical ∧
      ((⟨1, List.replicate n 0 ++ [1]⟩ : BigInteger).pow 2).toInt ≠ (⟨1, List.replicate n 0 ++ [1]⟩ : BigInteger).toInt ^ 2 := by
  have hlength : (List.replicate n (0 : UInt32) ++ [1]).length - 1 = n := by simp
  have hbit : (⟨1, List.replicate n 0 ++ [1]⟩ : BigInteger).getBitLength = 1 := by
    unfold getBitLength
    simp only [List.getLast?_concat, hlength]
    exact hbits
  have hv : 1 < value (List.replicate n (0 : UInt32) ++ [1]) := by
    rw [value_concat, value_replicate_zero, List.length_replicate]
    have hpow := Nat.one_lt_pow hn.ne' (by decide : 1 < 2 ^ 32)
    rw [Nat.zero_add, show (1 : UInt32).toNat = 1 from rfl, Nat.mul_one]
    exact hpow
  refine ⟨.ofPos (normalized_concat.mpr (by decide)), fun he => ?_⟩
  have hself : (⟨1, List.replicate n 0 ++ [1]⟩ : BigInteger).pow 2 = ⟨1, List.replicate n 0 ++ [1]⟩ := by
    rw [pow, if_neg (by decide), hbit, if_neg (by decide), if_pos rfl]
    exact if_neg (by simp)
  rw [hself, toInt, Int.one_mul] at he
  have he' : value (List.replicate n (0 : UInt32) ++ [1]) = value (List.replicate n (0 : UInt32) ++ [1]) ^ 2 := by
    exact_mod_cast he
  nlinarith

/-- **A power that is not taken.** -/
theorem hugePower_pow : hugePower.Canonical ∧ (hugePower.pow 2).toInt ≠ hugePower.toInt ^ 2 :=
  pow_two_of_wrapped (by decide) (by decide)

/-! ## The bit lengths of the powers of ten -/

theorem ten_pow_lt {a b q r c : Nat} (ha : 10 ^ a < 2 ^ b) (hr : 10 ^ r < 2 ^ c) :
    10 ^ (a * q + r) < 2 ^ (b * q + c) := by
  rw [Nat.pow_add, Nat.pow_add, Nat.pow_mul, Nat.pow_mul]
  exact Nat.mul_lt_mul_of_le_of_lt (Nat.pow_le_pow_left ha.le q) hr (Nat.pow_pos (Nat.two_pow_pos b))

theorem le_ten_pow {a b q r c : Nat} (ha : 2 ^ b ≤ 10 ^ a) (hr : 2 ^ c ≤ 10 ^ r) :
    2 ^ (b * q + c) ≤ 10 ^ (a * q + r) := by
  rw [Nat.pow_add, Nat.pow_add, Nat.pow_mul, Nat.pow_mul]
  exact Nat.mul_le_mul (Nat.pow_le_pow_left ha q) hr

/-- A bit length that two powers of ten in a row pass over. -/
theorem size_ten_pow_ne {n m v w x : Nat} (hup : 10 ^ n < 2 ^ v) (hv : v ≤ w) (hlo : 2 ^ x ≤ 10 ^ m) (hx : w + 1 ≤ x)
    (hm : m ≤ n + 1) (k : Nat) : (10 ^ k).size ≠ w + 1 := by
  intro h
  have hlow : 2 ^ w ≤ 10 ^ k := Nat.lt_size.mp (h ▸ Nat.lt_succ_self w)
  have hhigh : 10 ^ k < 2 ^ (w + 1) := Nat.size_le.mp h.le
  have hup' : 10 ^ n < 2 ^ w := hup.trans_le (Nat.pow_le_pow_right (by decide) hv)
  have hlo' : 2 ^ (w + 1) ≤ 10 ^ m := (Nat.pow_le_pow_right (by decide) hx).trans hlo
  have hn := (Nat.pow_lt_pow_iff_right (by decide : 1 < 10)).mp (hup'.trans_le hlow)
  have hm' := (Nat.pow_lt_pow_iff_right (by decide : 1 < 10)).mp (hhigh.trans_le hlo')
  omega

/-- `10 ^ 1292913986` has less than `2 ^ 32 + 1` bits, and the next power has
more: the logarithm of ten lies between `254370 / 76573` and `70777 / 21306`. -/
theorem size_ten_pow (k : Nat) : (10 ^ k).size ≠ 2 ^ 32 + 1 := by
  have hup := @ten_pow_lt 21306 70777 60683 1988 6604 (by decide +kernel) (by decide +kernel)
  have hlo := @le_ten_pow 76573 254370 16884 55455 184217 (by decide +kernel) (by decide +kernel)
  exact size_ten_pow_ne hup (by decide) hlo (by decide) (by decide) k

/-- No power of ten but the first is taken for `1`. -/
theorem getBitLength_getPowerOfTen (outside : Outside) {k : Int32} (h : 0 < k) :
    (getPowerOfTen outside k).getBitLength ≠ 1 := by
  have hle := Int32.le_of_lt h
  have hpos := Int32.lt_iff_toInt_lt.mp h
  have hlt := k.toInt_lt
  rw [Int32.toInt_zero] at hpos
  intro hone
  have hsize := toNat_getBitLength (canonical_getPowerOfTen outside k).1.normalized
  rw [hone, (value_getPowerOfTen outside hle).2, UInt32.toNat_one] at hsize
  have hbound : (10 ^ k.toInt.toNat).size ≤ 4 * k.toInt.toNat := by
    rw [Nat.size_le, Nat.pow_mul]
    exact Nat.pow_lt_pow_left (by decide) (by omega)
  have hsmall : (10 ^ k.toInt.toNat).size ≠ 1 := by
    intro h1
    have htwo : 10 ^ k.toInt.toNat < 2 ^ 1 := Nat.size_le.mp h1.le
    have hten : 10 ^ 1 ≤ 10 ^ k.toInt.toNat := Nat.pow_le_pow_right (by decide) (by omega)
    omega
  have hlarge := size_ten_pow k.toInt.toNat
  omega

end BigInteger

end DocumentDbOdbc
