/-
`ToInt64` of `BigInteger` and of `Decimal`.

The words of a negative number are negated one by one, without a borrow from
the low word to the high one. That is right for numbers of one word, and for
numbers whose low word is zero (`toInt_toInt64`).
-/
import DocumentDbOdbc.DecimalArithmeticFacts

namespace DocumentDbOdbc

open Limbs Scaled

namespace BigInteger

/-- A 64-bit word as a signed number. -/
theorem toInt_eq_iff {x : Int64} {t : Int} (hlow : -2 ^ 63 ≤ t) (hhigh : t < 2 ^ 63) :
    x.toInt = t ↔ 2 ^ 64 ∣ t - x.toUInt64.toNat := by
  have htoInt : x.toInt = (x.toUInt64.toNat : Int).bmod (2 ^ 64) := BitVec.toInt_eq_toNat_bmod x.toBitVec
  rw [htoInt, Int.bmod_eq_iff (by decide)]
  exact ⟨fun h => h.2.2, fun h => ⟨by omega, by omega, h⟩⟩

/-- The words of a negative number are negated, and ones above. -/
theorem toNat_getMagInt_of_some {mag : MagArray} {n : Nat} {x : UInt32} (h : mag[n]? = some x) :
    (((⟨-1, mag⟩ : BigInteger).getMagInt n).toNat : Int) = -x.toNat % 2 ^ 32 := by
  unfold getMagInt
  simp only [h]
  rw [toNat_ofInt, Int.neg_one_mul]

theorem toNat_getMagInt_of_none {mag : MagArray} {n : Nat} (h : mag[n]? = none) :
    (((⟨-1, mag⟩ : BigInteger).getMagInt n).toNat : Int) = 2 ^ 32 - 1 := by
  unfold getMagInt
  simp only [h]
  rfl

/-- **The narrowing of a 64-bit number** is right for a positive one, and for a
negative one of one word or with a low word of zero. -/
theorem toInt_toInt64 {b : BigInteger} (h : b.Normal) (hlow : -2 ^ 63 ≤ b.toInt) (hhigh : b.toInt < 2 ^ 63) :
    b.toInt64.toInt = b.toInt ↔ (b.mag = [] → b.sign = 1) ∧ (-2 ^ 32 ≤ b.toInt ∨ 2 ^ 32 ∣ b.toInt) := by
  have habs := h.natAbs_toInt
  have hlen := length_le_two h.normalized (by omega)
  rw [toInt_eq_iff hlow hhigh]
  obtain ⟨sign, mag⟩ := b
  rcases h.sign with rfl | rfl
  · have hv : (⟨1, mag⟩ : BigInteger).toInt = value mag := Int.one_mul _
    rw [toNat_toInt64 rfl h.normalized (by dsimp only at habs ⊢; omega), hv]
    dsimp only
    exact ⟨fun _ => ⟨fun _ => rfl, .inl (by omega)⟩, fun _ => ⟨0, by omega⟩⟩
  · have hv : (⟨-1, mag⟩ : BigInteger).toInt = -(value mag : Int) := by
      rw [toInt]
      dsimp only
      omega
    have hnormalized : Normalized mag := h.normalized
    rw [toNat_toInt64_eq, Nat.cast_add, Nat.cast_mul, hv]
    obtain _ | ⟨x, _ | ⟨y, _ | ⟨z, l⟩⟩⟩ := mag
    · rw [toNat_getMagInt_of_none rfl, toNat_getMagInt_of_none rfl, value_nil]
      simp
    · rw [toNat_getMagInt_of_some (x := x) rfl, toNat_getMagInt_of_none rfl, value_cons, value_nil]
      have hx := normalized_singleton.mp hnormalized
      have hlt := x.toNat_lt
      simp
      omega
    · rw [toNat_getMagInt_of_some (x := x) rfl, toNat_getMagInt_of_some (x := y) rfl, value_cons, value_cons, value_nil]
      have hy := (normalized_concat (l := [x])).mp hnormalized
      have hlt := x.toNat_lt
      have hlt' := y.toNat_lt
      have hy' : y.toNat ≠ 0 := fun h0 => hy (UInt32.toNat_inj.mp h0)
      simp
      omega
    · simp at hlen

/-- A 64-bit number that is positive, when its low 64 bits are known to be. -/
theorem value_of_toInt64 {b : BigInteger} (hs : b.sign = 1) (hn : Normalized b.mag) (hv : value b.mag < 2 ^ 64) {t : Int}
    (ht : 0 ≤ t) (hfit : t < 2 ^ 63) (h : b.toInt64.toInt = t) : (value b.mag : Int) = t := by
  have hdvd := (toInt_eq_iff (by omega) hfit).mp h
  rw [toNat_toInt64 hs hn hv] at hdvd
  omega

end BigInteger

namespace Common.Decimal

open BigInteger

/-- `ToInt64` has its number: the scale is zero, or rescaling is exact. -/
def Rescalable (d : Decimal) : Prop := d.scale = 0 ∨ RescaleExact d 0

/-- The number is one whose words can be negated one by one, and no negative
zero, unless it was divided. -/
def Narrows (d : Decimal) : Prop :=
  (d.magnitude.mag = [] → d.magnitude.sign = 1 ∨ 0 < d.scale) ∧
    (-2 ^ 32 ≤ truncate d.value ∨ 2 ^ 32 ∣ truncate d.value)

section

variable (outside : Outside) {d : Decimal}

theorem value_mul_one (d : Decimal) : d.value * 10 ^ (0 : Int32).toInt = d.value := by
  rw [Int32.toInt_zero, zpow_zero, mul_one]

theorem toInt_toInt64 (hm : d.magnitude.Normal) (hlow : -2 ^ 63 ≤ truncate d.value) (hhigh : truncate d.value < 2 ^ 63)
    (h : Rescalable d) :
    SetScaleInBounds outside d 0 ∧ ((toInt64 outside d).toInt = truncate d.value ↔ Narrows d) := by
  by_cases h0 : d.scale = 0
  · have ht : truncate d.value = d.magnitude.toInt := by
      rw [← value_mul_one, truncate_value, h0, if_neg (Int.lt_irrefl _)]
      simp
    rw [ht] at hlow hhigh
    have hsmall : ¬ 0 < d.scale := by
      rw [h0]
      decide
    rw [SetScaleInBounds, if_pos h0, toInt64, if_pos h0, Narrows, ht, BigInteger.toInt_toInt64 hm hlow hhigh,
      or_iff_left hsmall]
    exact ⟨trivial, Iff.rfl⟩
  · have hfit : -2 ^ 31 ≤ d.scale.toInt - (0 : Int32).toInt ∧ d.scale.toInt - (0 : Int32).toInt < 2 ^ 31 := by
      have := d.scale.le_toInt
      have := d.scale.toInt_lt
      rw [Int32.toInt_zero]
      omega
    obtain ⟨hbounds, hnormal, hvalue, hzero⟩ := rescaled_magnitude outside zero hm hfit.1 hfit.2 h0
      (h.resolve_left h0)
    rw [value_mul_one] at hvalue
    rw [toInt64, if_neg h0, Narrows, ← hzero, ← hvalue]
    exact ⟨hbounds, BigInteger.toInt_toInt64 hnormal (by omega) (by omega)⟩

/-- A quotient of `j` limbs, but for the largest ones, is not given more than
`j` limbs, whatever its estimates. -/
theorem value_quotient_lt {b divisor : BigInteger} {q : Division} {j : Nat} (h : b.Normal) (h' : divisor.Normal)
    (hne : divisor.mag ≠ []) (hbit : divisor.getBitLength ≠ 1) (hlen : b.mag.length ≤ 2 ∨ 2 ≤ divisor.mag.length)
    (hd : DividePath outside b divisor false q)
    (hfit : 2 ^ 63 * (Limbs.value b.mag / Limbs.value divisor.mag + 1) ≤ (2 ^ 63 - 1) * (2 ^ 32) ^ j) :
    Limbs.value q.res.mag < (2 ^ 32) ^ j := by
  have hpos : 0 < Limbs.value divisor.mag := h'.normalized.value_pos hne
  have hless : Limbs.value b.mag / Limbs.value divisor.mag + 1 < (2 ^ 32) ^ j := by
    have hquot := Nat.zero_le (Limbs.value b.mag / Limbs.value divisor.mag)
    generalize Limbs.value b.mag / Limbs.value divisor.mag = q at hfit hquot ⊢
    omega
  have hone : 1 < (2 ^ 32) ^ j := (Nat.le_add_left 1 _).trans_lt hless
  by_cases hshort : b.mag.length ≤ 2
  · rw [hd.quotient_short h h' hshort hne]
    exact (Nat.lt_succ_self _).trans hless
  · have hlen := hlen.resolve_left hshort
    cases hd with
    | equal heq =>
      have hunit := (assignInt64_mul (h.sign_mul h') (n := 1) (by decide)).1
      rw [Nat.cast_one, Int.mul_one] at hunit
      rw [hunit]
      exact hone
    | less _ => exact Nat.zero_lt_one.trans hone
    | unit _ hunit => exact absurd hunit hbit
    | short _ _ hle => exact absurd hle hshort
    | long hlt _ _ =>
      have hmul : 2 ^ 63 * Limbs.value b.mag ≤ (2 ^ 63 - 1) * ((2 ^ 32) ^ j * Limbs.value divisor.mag) := by
        have hquot := Nat.lt_mul_div_succ (Limbs.value b.mag) hpos
        calc 2 ^ 63 * Limbs.value b.mag
            ≤ 2 ^ 63 * (Limbs.value divisor.mag * (Limbs.value b.mag / Limbs.value divisor.mag + 1)) :=
              Nat.mul_le_mul_left _ hquot.le
          _ = 2 ^ 63 * (Limbs.value b.mag / Limbs.value divisor.mag + 1) * Limbs.value divisor.mag := by ring
          _ ≤ (2 ^ 63 - 1) * (2 ^ 32) ^ j * Limbs.value divisor.mag := Nat.mul_le_mul_right _ hfit
          _ = _ := by ring
      exact (value_normalize _).trans_lt
        (divideMagnitude_lt outside h'.normalized hlen (length_le_of_value_le h'.normalized hlt.le) hmul)

/-- A smaller scale stays inside its arrays unless Algorithm D gets a divisor of
one limb. -/
theorem setScaleInBounds_down_iff {newScale : Int32} (hm : d.magnitude.Normal)
    (h' : d.scale.toInt - newScale.toInt < 2 ^ 31) (hlt : newScale.toInt < d.scale.toInt) :
    SetScaleInBounds outside d newScale ↔ d.magnitude.mag.length ≤ 2 ∨ 10 ≤ d.scale - newScale := by
  have hne : d.scale ≠ newScale := fun he => by rw [he] at hlt; omega
  have hdiff := (diff_pos_iff (by omega) h').mpr hlt
  obtain ⟨hpower, -, hone, hten⟩ := getPowerOfTen_diff outside h' hlt
  rw [SetScaleInBounds, if_neg hne]
  dsimp only
  rw [if_pos hdiff, hten]
  constructor
  · intro hbounds
    by_contra hnot
    rw [not_or] at hnot
    have hpos := List.length_pos_iff.mpr hpower.2
    exact divideAccesses_not_inBounds hm.normalized hpower.1.normalized (by omega) hone (by omega) false hbounds
  · rintro (hshort | htwo)
    · exact divideAccesses_inBounds hm.normalized hpower.1.normalized hpower.2 (.inr (.inr hshort)) false
    · exact divideAccesses_inBounds hm.normalized hpower.1.normalized hpower.2 (.inl htwo) false

/-- **A smaller scale**, right or not, gives a magnitude that is not too small,
and of no more limbs unless it is close to a power of `2 ^ 32`. -/
theorem setScale_down_bounds (res : Decimal) {newScale : Int32} (hm : d.magnitude.Normal)
    (h' : d.scale.toInt - newScale.toInt < 2 ^ 31) (hlt : newScale.toInt < d.scale.toInt)
    (hbounds : SetScaleInBounds outside d newScale) {t : Nat}
    (ht : (truncate (d.value * 10 ^ newScale.toInt)).natAbs = t) :
    (setScale outside d res newScale).magnitude.Canonical ∧
      (setScale outside d res newScale).magnitude.toInt =
        d.magnitude.sign * Limbs.value (setScale outside d res newScale).magnitude.mag ∧
      t ≤ Limbs.value (setScale outside d res newScale).magnitude.mag ∧
      ∀ j, 2 ^ 63 * (t + 1) ≤ (2 ^ 63 - 1) * (2 ^ 32) ^ j →
        Limbs.value (setScale outside d res newScale).magnitude.mag < (2 ^ 32) ^ j := by
  obtain ⟨q, hpath, hset, hres⟩ := setScale_down outside res hm h' hlt
  have hdiff := (diff_pos_iff (by omega) h').mpr hlt
  obtain ⟨hpower, hvalue, -, hten⟩ := getPowerOfTen_diff outside h' hlt
  have hlen : d.magnitude.mag.length ≤ 2 ∨ 2 ≤ (getPowerOfTen outside (d.scale - newScale)).mag.length :=
    ((setScaleInBounds_down_iff outside hm h' hlt).mp hbounds).imp_right hten.mp
  have hquot : t = Limbs.value d.magnitude.mag / Limbs.value (getPowerOfTen outside (d.scale - newScale)).mag := by
    rw [← ht, truncate_value, if_pos hlt, Int.natAbs_tdiv, hm.natAbs_toInt, hvalue]
    rfl
  rw [hset]
  refine ⟨hpath.canonical_res hm hpower.1.normal hpower.2 hlen, hres, ?_, fun j hj => ?_⟩
  · rw [hquot]
    exact hpath.le_quotient hm hpower.1.normal hpower.2 hlen
  · rw [hquot] at hj
    exact value_quotient_lt outside hm hpower.1.normal hpower.2 (getBitLength_getPowerOfTen outside hdiff) hlen hpath hj

/-- A positive number that is right was rescaled right. -/
theorem rescalable_of_toInt64 (hm : d.magnitude.Normal) (ht : 0 ≤ truncate d.value) (hhigh : truncate d.value < 2 ^ 63)
    (hbounds : SetScaleInBounds outside d 0) (h : (toInt64 outside d).toInt = truncate d.value) : Rescalable d := by
  by_cases h0 : d.scale = 0
  · exact .inl h0
  refine .inr ?_
  have hlow := d.scale.le_toInt
  have hfit : d.scale.toInt - (0 : Int32).toInt < 2 ^ 31 := by
    have := d.scale.toInt_lt
    rw [Int32.toInt_zero]
    omega
  have hvalue := truncate_value d (0 : Int32).toInt
  rw [value_mul_one] at hvalue
  rcases Int.lt_or_gt_of_ne (mt Int32.toInt_inj.mp h0) with hlt | hgt
  · obtain ⟨hin, hup⟩ := @setScale_up_iff outside d 0
      (by rw [Int32.toInt_zero]; omega) hlt
    exact hup.mpr (hin.mp hbounds)
  · rw [if_pos hgt] at hvalue
    have hinside := (setScaleInBounds_down_iff outside hm hfit hgt).mp hbounds
    by_cases hle : Limbs.value d.magnitude.mag ≤ 10 ^ (d.scale - 0).toInt.toNat
    · rw [RescaleExact, if_pos ((diff_pos_iff (by omega) hfit).mpr hgt)]
      exact hinside.imp_right fun hten => ⟨hten, .inl hle⟩
    · -- The truncated number is not zero, so the number is positive.
      refine (setScale_down_iff outside zero hm hfit hgt).mp ⟨hbounds, ?_⟩
      rw [toInt, sign_mul_tdiv hm.sign] at hvalue
      have hsub := toInt32_sub (a := d.scale) (b := 0) (by omega) hfit
      have hquot : 0 < Limbs.value d.magnitude.mag / 10 ^ (d.scale.toInt - (0 : Int32).toInt).toNat := by
        rw [← hsub]
        exact Nat.div_pos (by omega) (Nat.pow_pos (by decide))
      have hsign : d.magnitude.sign = 1 := hm.sign.resolve_right fun hs => by
        rw [hs] at hvalue
        omega
      obtain ⟨hc, hres, -, hlimbs⟩ := setScale_down_bounds outside zero hm hfit hgt hbounds
        (congrArg (fun q => (truncate q).natAbs) (value_mul_one d))
      rw [hsign, Int.one_mul] at hres
      rw [toInt64, if_neg h0] at h
      have hword := value_of_toInt64 (hc.sign_of_nonneg (by omega)) hc.normalized (hlimbs 2 (by omega)) ht hhigh h
      rw [hres, hword, hvalue, toInt, sign_mul_tdiv hm.sign]

end

/-- **Narrowing to 64 bits** is exact for the integers from `-2 ^ 32` on and for
the multiples of `2 ^ 32`; for the decimals that are rescaled right it is exact
under that condition on the number, truncated. A positive number is narrowed
right only if it is rescaled right. -/
theorem toInt64_truncates_iff (outside : Outside) :
    (∀ x : Int64, (assignInt64 x).toInt64 = x ↔ -2 ^ 32 ≤ x.toInt ∨ 2 ^ 32 ∣ x.toInt) ∧
    (∀ d : Decimal, d.magnitude.Normal → -2 ^ 63 ≤ truncate d.value → truncate d.value < 2 ^ 63 → Rescalable d →
      (SetScaleInBounds outside d 0 ∧ (toInt64 outside d).toInt = truncate d.value ↔ Narrows d)) ∧
    ∀ d : Decimal, d.magnitude.Normal → 0 ≤ truncate d.value → truncate d.value < 2 ^ 63 →
      (SetScaleInBounds outside d 0 ∧ (toInt64 outside d).toInt = truncate d.value ↔ Rescalable d ∧ Narrows d) := by
  refine ⟨fun x => ?_, fun d hm hlow hhigh h => ?_, fun d hm ht hhigh => ?_⟩
  · have hc := canonical_assignInt64 x
    have htoInt := toInt_assignInt64 x
    have hiff := BigInteger.toInt_toInt64 hc.normal (by rw [htoInt]; exact x.le_toInt) (by rw [htoInt]; exact x.toInt_lt)
    rw [htoInt, Int64.toInt_inj] at hiff
    exact hiff.trans (and_iff_right hc.zero)
  · obtain ⟨hbounds, hiff⟩ := toInt_toInt64 outside hm hlow hhigh h
    exact (and_iff_right hbounds).trans hiff
  · constructor
    · rintro ⟨hbounds, h⟩
      have hrescalable := rescalable_of_toInt64 outside hm ht hhigh hbounds h
      exact ⟨hrescalable, (toInt_toInt64 outside hm (by omega) hhigh hrescalable).2.mp h⟩
    · rintro ⟨hrescalable, hnarrows⟩
      obtain ⟨hbounds, hiff⟩ := toInt_toInt64 outside hm (by omega) hhigh hrescalable
      exact ⟨hbounds, hiff.mpr hnarrows⟩

/-- `-123.45` is narrowed to `-123`. -/
theorem toInt64_truncates_iff_negative : (toInt64 .zeros ⟨2, assignInt64 (-12345)⟩).toInt = -123 := by
  have ht : truncate (⟨2, assignInt64 (-12345)⟩ : Decimal).value = -123 := by
    rw [← value_mul_one, truncate_value]
    decide
  have h := ((toInt64_truncates_iff .zeros).2.1 ⟨2, assignInt64 (-12345)⟩ (canonical_assignInt64 (-12345)).normal
    (by rw [ht]; decide) (by rw [ht]; decide) (.inr (.inl (by decide)))).mpr
    ⟨fun hnil => absurd hnil (by decide), .inl (by rw [ht]; decide)⟩
  exact h.2.trans ht

/-- **A borrow that is not taken**: `-4294967297` is narrowed to `-1`. -/
theorem toInt64_not_truncated : (assignInt64 (-4294967297)).toInt64 = -1 ∧
    toInt64 .zeros ⟨0, assignInt64 (-4294967297)⟩ = -1 ∧
    truncate (⟨0, assignInt64 (-4294967297)⟩ : Decimal).value = -4294967297 ∧
    ¬ ∀ x : Int64, (assignInt64 x).toInt64 = x := by
  refine ⟨by decide, by decide, ?_, fun h => absurd (h (-4294967297)) (by decide)⟩
  rw [← value_mul_one, truncate_value]
  decide

end Common.Decimal

end DocumentDbOdbc
