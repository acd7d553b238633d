/-
`SetScale`, `ToInt64` and `Compare` against the rational numbers.

A larger scale is exact for every magnitude. A smaller one is exact where
`Divide` is (`RescaleExact`), and an equal one leaves the result as it was
(`setScale_iff`). `Compare` only makes scales larger.
-/
import DocumentDbOdbc.BigIntegerPower
import DocumentDbOdbc.DecimalArithmetic
import DocumentDbOdbc.DecimalTextFacts
import DocumentDbOdbc.Lib.Scaled

namespace DocumentDbOdbc

open Limbs Scaled

namespace BigInteger

theorem two_le_length_iff {l : MagArray} (h : Normalized l) : 2 ≤ l.length ↔ 2 ^ 32 ≤ value l := by
  constructor
  · intro hlen
    have hlow := pow_length_le_value h (fun hnil => by simp [hnil] at hlen)
    have hpow : (2 ^ 32) ^ 1 ≤ (2 ^ 32) ^ (l.length - 1) := Nat.pow_le_pow_right (by decide) (by omega)
    omega
  · intro hle
    by_contra hlen
    have hpow : (2 ^ 32) ^ l.length ≤ (2 ^ 32) ^ 1 := Nat.pow_le_pow_right (by decide) (by omega)
    have := value_lt l
    omega

/-- A power of ten has two limbs from `10 ^ 10` on. -/
theorem two_le_length_getPowerOfTen (outside : Outside) {k : Int32} (h : 0 ≤ k) :
    2 ≤ (getPowerOfTen outside k).mag.length ↔ 10 ≤ k.toInt := by
  have hpos := Int32.le_iff_toInt_le.mp h
  rw [Int32.toInt_zero] at hpos
  rw [two_le_length_iff (canonical_getPowerOfTen outside k).1.normalized, (value_getPowerOfTen outside h).2]
  constructor
  · intro hle
    by_contra hlt
    have hpow : 10 ^ k.toInt.toNat ≤ 10 ^ 9 := Nat.pow_le_pow_right (by decide) (by omega)
    omega
  · intro hle
    have hpow : 10 ^ 10 ≤ 10 ^ k.toInt.toNat := Nat.pow_le_pow_right (by decide) (by omega)
    omega

/-- A power of ten does not depend on what stands around the table. -/
theorem getPowerOfTen_outside (outside outside' : Outside) {k : Int32} (h : 0 ≤ k) :
    getPowerOfTen outside k = getPowerOfTen outside' k := by
  refine (canonical_getPowerOfTen outside k).1.ext (canonical_getPowerOfTen outside' k).1 ?_
  rw [(getPowerOfTen_spec _ h).2, (getPowerOfTen_spec _ h).2]

theorem compare_orders {b other : BigInteger} (h : b.Canonical) (h' : other.Canonical) :
    Orders (b.compare other false) b.toInt other.toInt := by
  have he := compare_eq h h'
  split at he
  · next heq => exact ⟨by omega, by omega, by omega⟩
  · next hne =>
    split at he
    · exact ⟨by omega, by omega, by omega⟩
    · exact ⟨by omega, by omega, by omega⟩

end BigInteger

namespace Common.Decimal

open BigInteger

theorem value_eq_scaled (d : Decimal) : d.value = scaled 10 d.magnitude.toInt d.scale.toInt := by
  rw [value, scaled, Nat.cast_ofNat]

/-- The integer a number has at a scale. -/
theorem truncate_value (d : Decimal) (t : Int) :
    truncate (d.value * 10 ^ t) =
      if t < d.scale.toInt then d.magnitude.toInt.tdiv (10 ^ (d.scale.toInt - t).toNat : Nat)
      else d.magnitude.toInt * 10 ^ (t - d.scale.toInt).toNat := by
  have h := truncate_scaled (b := 10) (by decide) d.magnitude.toInt d.scale.toInt t
  rw [value_eq_scaled]
  exact_mod_cast h

/-! ## Larger scales -/

section

variable (outside : Outside) {d : Decimal} (res : Decimal) {newScale : Int32}

theorem diff_pos_iff (h : -2 ^ 31 ≤ d.scale.toInt - newScale.toInt) (h' : d.scale.toInt - newScale.toInt < 2 ^ 31) :
    d.scale - newScale > 0 ↔ newScale.toInt < d.scale.toInt := by
  rw [gt_iff_lt, Int32.lt_iff_toInt_lt, toInt32_sub h h', Int32.toInt_zero]
  omega

/-- The power of ten a larger scale takes. -/
theorem toInt_neg_diff (h : -2 ^ 31 < d.scale.toInt - newScale.toInt) (hle : d.scale.toInt ≤ newScale.toInt) :
    (-(d.scale - newScale)).toInt = newScale.toInt - d.scale.toInt := by
  have hsub := toInt32_sub (a := d.scale) (b := newScale) h.le (by omega)
  rw [toInt32_neg (by rw [hsub]; omega), hsub]
  omega

/-- **A larger scale** multiplies. -/
theorem setScale_up (h : -2 ^ 31 < d.scale.toInt - newScale.toInt) (hlt : d.scale.toInt < newScale.toInt) :
    ∃ power : BigInteger, power.Nonzero ∧ power.sign = 1 ∧
      setScale outside d res newScale = ⟨newScale, d.magnitude.multiply power⟩ ∧
      (setScale outside d res newScale).magnitude.toInt =
        d.magnitude.toInt * 10 ^ (newScale.toInt - d.scale.toInt).toNat := by
  have hne : d.scale ≠ newScale := fun he => by rw [he] at hlt; omega
  have hdiff := mt (diff_pos_iff h.le (by omega)).mp (by omega)
  have hneg := toInt_neg_diff h hlt.le
  have hk : 0 ≤ -(d.scale - newScale) := by
    rw [Int32.le_iff_toInt_le, hneg, Int32.toInt_zero]
    omega
  obtain ⟨hpower, hten⟩ := getPowerOfTen_spec outside hk
  have hset : setScale outside d res newScale =
      ⟨newScale, d.magnitude.multiply (getPowerOfTen outside (-(d.scale - newScale)))⟩ := by
    rw [setScale, if_neg hne]
    dsimp only
    rw [if_neg hdiff]
  refine ⟨_, hpower, (value_getPowerOfTen outside hk).1, hset, ?_⟩
  rw [hset]
  dsimp only
  rw [toInt_multiply, hten, hneg]

theorem canonical_setScale_up (h : -2 ^ 31 < d.scale.toInt - newScale.toInt) (hlt : d.scale.toInt < newScale.toInt)
    (hc : d.magnitude.Canonical) : (setScale outside d res newScale).magnitude.Canonical := by
  obtain ⟨power, hpower, hsign, hset, -⟩ := setScale_up outside res h hlt
  rw [hset]
  refine canonical_multiply hc hpower.1 fun hz => ?_
  rw [hc.zero (hz.resolve_right hpower.2), hsign]

/-- It is the same number. -/
theorem value_setScale_up (h : -2 ^ 31 < d.scale.toInt - newScale.toInt) (hlt : d.scale.toInt < newScale.toInt) :
    (setScale outside d res newScale).value = d.value := by
  obtain ⟨_, -, -, hset, hvalue⟩ := setScale_up outside res h hlt
  have hscale : (setScale outside d res newScale).scale = newScale := by rw [hset]
  have hkeep := scaled_mul_pow (b := 10) (by decide) d.magnitude.toInt d.scale.toInt
    (newScale.toInt - d.scale.toInt).toNat
  rw [Int.toNat_of_nonneg (by omega), add_sub_cancel] at hkeep
  rw [value_eq_scaled, value_eq_scaled, hscale, hvalue, ← hkeep]
  push_cast
  rfl

/-! ## Smaller scales -/

/-- Truncated division of a signed magnitude by a positive number. -/
theorem sign_mul_tdiv {s : Int} (hs : s = 1 ∨ s = -1) (u v : Nat) : (s * u).tdiv v = s * (u / v : Nat) := by
  rcases hs with rfl | rfl <;> simp [Int.neg_tdiv]

/-- The power of ten a smaller scale divides by: more than one, and of two limbs
from a difference of ten on. -/
theorem getPowerOfTen_diff (h' : d.scale.toInt - newScale.toInt < 2 ^ 31) (hlt : newScale.toInt < d.scale.toInt) :
    (getPowerOfTen outside (d.scale - newScale)).Nonzero ∧
      Limbs.value (getPowerOfTen outside (d.scale - newScale)).mag = 10 ^ (d.scale.toInt - newScale.toInt).toNat ∧
      Limbs.value (getPowerOfTen outside (d.scale - newScale)).mag ≠ 1 ∧
      (10 ≤ d.scale - newScale ↔ 2 ≤ (getPowerOfTen outside (d.scale - newScale)).mag.length) := by
  have hk : 0 ≤ d.scale - newScale := Int32.le_of_lt ((diff_pos_iff (by omega) h').mpr hlt)
  have hvalue := (value_getPowerOfTen outside hk).2
  rw [toInt32_sub (a := d.scale) (b := newScale) (by omega) h'] at hvalue
  refine ⟨(getPowerOfTen_spec outside hk).1, hvalue, ?_, ?_⟩
  · rw [hvalue]
    exact (Nat.one_lt_pow (by omega) (by decide)).ne'
  · rw [two_le_length_getPowerOfTen outside hk, Int32.le_iff_toInt_le]
    rfl

/-- The division a smaller scale takes. -/
theorem setScale_down (hm : d.magnitude.Normal) (h' : d.scale.toInt - newScale.toInt < 2 ^ 31)
    (hlt : newScale.toInt < d.scale.toInt) :
    ∃ q, DividePath outside d.magnitude (getPowerOfTen outside (d.scale - newScale)) false q ∧
      setScale outside d res newScale = ⟨newScale, q.res⟩ ∧
      q.res.toInt = d.magnitude.sign * Limbs.value q.res.mag := by
  have hne : d.scale ≠ newScale := fun he => by rw [he] at hlt; omega
  have hdiff := (diff_pos_iff (by omega) h').mpr hlt
  have hk : 0 ≤ d.scale - newScale := Int32.le_of_lt hdiff
  have hpower := (getPowerOfTen_diff outside h' hlt).1
  obtain ⟨q, hdivide, hpath⟩ := divide_path outside false hm.normalized hpower.1.normalized hpower.2
  refine ⟨q, hpath, ?_, ?_⟩
  · rw [setScale, if_neg hne]
    dsimp only
    rw [if_pos hdiff, hdivide]
  · rw [hpath.toInt_res hm hpower.1.normal hpower.2, (value_getPowerOfTen outside hk).1, Int.mul_one]

/-- To a larger scale the exponent must not be `2 ^ 31`. To a smaller one the
division must be right: by one limb, which `10 ^ 1` to `10 ^ 9` are, the
magnitude may have two limbs, and by more no estimate may be too large. -/
def RescaleExact (d : Decimal) (newScale : Int32) : Prop :=
  let diff := d.scale - newScale
  if diff > 0 then
    d.magnitude.mag.length ≤ 2 ∨ diff ≥ 10 ∧ (Limbs.value d.magnitude.mag ≤ 10 ^ diff.toInt.toNat ∨
      EstimatesExact d.magnitude.mag (getPowerOfTen .zeros diff).mag)
  else diff ≠ -2147483648

/-- A smaller scale is right exactly when the division is. -/
theorem setScale_down_iff (hm : d.magnitude.Normal) (h' : d.scale.toInt - newScale.toInt < 2 ^ 31)
    (hlt : newScale.toInt < d.scale.toInt) :
    SetScaleInBounds outside d newScale ∧ (setScale outside d res newScale).magnitude.toInt =
        d.magnitude.toInt.tdiv (10 ^ (d.scale.toInt - newScale.toInt).toNat : Nat) ↔
      RescaleExact d newScale := by
  have hne : d.scale ≠ newScale := fun he => by rw [he] at hlt; omega
  have hdiff := (diff_pos_iff (by omega) h').mpr hlt
  have hsub := toInt32_sub (a := d.scale) (b := newScale) (by omega) h'
  have hk : 0 ≤ d.scale - newScale := Int32.le_of_lt hdiff
  obtain ⟨hpower, hvalue, hone, hlen⟩ := getPowerOfTen_diff outside h' hlt
  obtain ⟨q, hpath, hset, hres⟩ := setScale_down outside res hm h' hlt
  have hquotient : (setScale outside d res newScale).magnitude.toInt =
      d.magnitude.toInt.tdiv (10 ^ (d.scale.toInt - newScale.toInt).toNat : Nat) ↔
        Limbs.value q.res.mag = Limbs.value d.magnitude.mag / Limbs.value (getPowerOfTen outside (d.scale - newScale)).mag := by
    rw [hset, hres, toInt, sign_mul_tdiv hm.sign, hvalue]
    rcases hm.sign with hs | hs <;> rw [hs] <;> omega
  have hexact : DivideExact d.magnitude (getPowerOfTen outside (d.scale - newScale)) ↔
      Limbs.value d.magnitude.mag ≤ 10 ^ (d.scale - newScale).toInt.toNat ∨
        EstimatesExact d.magnitude.mag (getPowerOfTen outside (d.scale - newScale)).mag := by
    rw [DivideExact, hvalue, hsub]
    exact or_congr_right (and_iff_right (getBitLength_getPowerOfTen outside hdiff))
  rw [hquotient, SetScaleInBounds, if_neg hne, RescaleExact]
  dsimp only
  rw [if_pos hdiff, if_pos hdiff, ge_iff_le, hlen, getPowerOfTen_outside .zeros outside hk, ← hexact]
  exact divide_quotient_iff hm hpower.1.normal hpower.2 hone hpath

/-- A difference of `-2 ^ 31` has no opposite. -/
theorem setScale_up_iff (h : -2 ^ 31 ≤ d.scale.toInt - newScale.toInt) (hlt : d.scale.toInt < newScale.toInt) :
    (SetScaleInBounds outside d newScale ↔ -2 ^ 31 < d.scale.toInt - newScale.toInt) ∧
      (RescaleExact d newScale ↔ -2 ^ 31 < d.scale.toInt - newScale.toInt) := by
  have hne : d.scale ≠ newScale := fun he => by rw [he] at hlt; omega
  have hdiff := mt (diff_pos_iff h (by omega)).mp (by omega)
  have hsub := toInt32_sub (a := d.scale) (b := newScale) h (by omega)
  have hmin : d.scale - newScale = -2147483648 ↔ d.scale.toInt - newScale.toInt = -2 ^ 31 := by
    rw [← Int32.toInt_inj, hsub]
    exact Iff.rfl
  constructor
  · rw [SetScaleInBounds, if_neg hne, if_neg hdiff]
    constructor
    · intro hk
      by_contra hle
      rw [hmin.mpr (by omega)] at hk
      exact absurd hk (by decide)
    · intro hlow
      rw [Int32.le_iff_toInt_le, toInt_neg_diff hlow hlt.le, Int32.toInt_zero]
      omega
  · rw [RescaleExact, if_neg hdiff, Ne, hmin]
    omega

/-- Where rescaling is exact the result is the number, truncated. A zero made
of a negative zero is one too unless it was divided. -/
theorem rescaled_magnitude (hm : d.magnitude.Normal) (h : -2 ^ 31 ≤ d.scale.toInt - newScale.toInt)
    (h' : d.scale.toInt - newScale.toInt < 2 ^ 31) (hne : d.scale ≠ newScale) (hexact : RescaleExact d newScale) :
    SetScaleInBounds outside d newScale ∧ (setScale outside d res newScale).magnitude.Normal ∧
      (setScale outside d res newScale).magnitude.toInt = truncate (d.value * 10 ^ newScale.toInt) ∧
      (((setScale outside d res newScale).magnitude.mag = [] → (setScale outside d res newScale).magnitude.sign = 1) ↔
        (d.magnitude.mag = [] → d.magnitude.sign = 1 ∨ newScale < d.scale)) := by
  rw [truncate_value]
  rcases Int.lt_or_gt_of_ne (mt Int32.toInt_inj.mp hne) with hlt | hgt
  · obtain ⟨hbounds, hup⟩ := setScale_up_iff outside h hlt
    have hlow := hup.mp hexact
    obtain ⟨power, hpower, hsign, hset, hvalue⟩ := setScale_up outside res hlow hlt
    have hless : ¬ newScale < d.scale := fun hless => by
      have := Int32.lt_iff_toInt_lt.mp hless
      omega
    have hnil : (d.magnitude.multiply power).mag = [] ↔ d.magnitude.mag = [] := by
      have hpos := mt (value_eq_zero_iff hpower.1.normalized).mp hpower.2
      rw [← value_eq_zero_iff (hm.multiply hpower.1.normal).normalized, ← value_eq_zero_iff hm.normalized,
        value_multiply, Nat.mul_eq_zero, or_iff_left hpos]
    refine ⟨hbounds.mpr hlow, ?_, ?_, ?_⟩
    · rw [hset]
      exact hm.multiply hpower.1.normal
    · rw [hvalue, if_neg (by omega)]
    · have hmul : (d.magnitude.multiply power).sign = d.magnitude.sign * power.sign := rfl
      rw [hset]
      dsimp only
      rw [hnil, or_iff_left hless, hmul, hsign, Int.mul_one]
  · obtain ⟨hbounds, hvalue⟩ := (setScale_down_iff outside res hm h' hgt).mpr hexact
    obtain ⟨q, hpath, hset, -⟩ := setScale_down outside res hm h' hgt
    obtain ⟨hpower, -, -, hten⟩ := getPowerOfTen_diff outside h' hgt
    have hlen : d.magnitude.mag.length ≤ 2 ∨ 2 ≤ (getPowerOfTen outside (d.scale - newScale)).mag.length := by
      rw [RescaleExact, if_pos ((diff_pos_iff h h').mpr hgt)] at hexact
      exact hexact.imp_right fun hle => hten.mp hle.1
    have hc := hpath.canonical_res hm hpower.1.normal hpower.2 hlen
    refine ⟨hbounds, by rw [hset]; exact hc.normal, by rw [hvalue, if_pos hgt], ?_⟩
    rw [hset]
    exact ⟨fun _ _ => .inr (Int32.lt_iff_toInt_lt.mpr hgt), fun _ => hc.zero⟩

end

/-! ## Every scale -/

/-- The result has the scale that was asked for and the number, truncated; a
larger scale keeps the number. Objects other than the result are left alone. -/
structure Rescaled (outside : Outside) (s : Objects) (x : Nat) (newScale : Int32) (res : Nat) : Prop where
  inBounds : SetScaleInBounds outside (s x) newScale
  scale : (runSetScale outside s x newScale res res).scale = newScale
  unscaled : (runSetScale outside s x newScale res res).magnitude.toInt = truncate ((s x).value * 10 ^ newScale.toInt)
  exact : (s x).scale ≤ newScale → (runSetScale outside s x newScale res res).value = (s x).value
  others : ∀ y, y ≠ res → runSetScale outside s x newScale res y = s y

/-- The result is there already when the scale is, and otherwise rescaling is
exact. -/
def Rescales (s : Objects) (x : Nat) (newScale : Int32) (res : Nat) : Prop :=
  if (s x).scale = newScale then (s res).scale = newScale ∧ (s res).magnitude.toInt = (s x).magnitude.toInt
  else RescaleExact (s x) newScale

/-- **`SetScale` is exact truncation** under just that condition. -/
theorem setScale_iff (outside : Outside) {s : Objects} {x res : Nat} {newScale : Int32} (hm : (s x).magnitude.Normal)
    (h : -2 ^ 31 ≤ (s x).scale.toInt - newScale.toInt) (h' : (s x).scale.toInt - newScale.toInt < 2 ^ 31) :
    Rescaled outside s x newScale res ↔ Rescales s x newScale res := by
  have hres : runSetScale outside s x newScale res res = setScale outside (s x) (s res) newScale :=
    Function.update_self ..
  have hothers : ∀ y, y ≠ res → runSetScale outside s x newScale res y = s y := fun y hy => Function.update_of_ne hy ..
  have htruncate := truncate_value (s x) newScale.toInt
  rw [Rescales]
  rcases Int.lt_trichotomy (s x).scale.toInt newScale.toInt with hlt | heq | hgt
  · have hne : (s x).scale ≠ newScale := fun he => by rw [he] at hlt; omega
    rw [if_neg hne]
    rw [if_neg (by omega)] at htruncate
    obtain ⟨hbounds, hexact⟩ := setScale_up_iff outside h hlt
    refine ⟨fun hr => hexact.mpr (hbounds.mp hr.inBounds), fun hr => ?_⟩
    have hlow := hexact.mp hr
    obtain ⟨_, -, -, hset, hvalue⟩ := setScale_up outside (s res) hlow hlt
    exact ⟨hbounds.mpr hlow, by rw [hres, hset], by rw [hres, hvalue, htruncate],
      fun _ => by rw [hres, value_setScale_up outside (s res) hlow hlt], hothers⟩
  · have he := Int32.toInt_inj.mp heq
    have hself : setScale outside (s x) (s res) newScale = s res := if_pos he
    rw [if_pos he]
    rw [if_neg (by omega), heq, Int.sub_self, Int.toNat_zero, pow_zero, Int.mul_one] at htruncate
    refine ⟨fun hr => ⟨?_, ?_⟩, fun ⟨hscale, hvalue⟩ => ⟨?_, ?_, ?_, fun _ => ?_, hothers⟩⟩
    · rw [← hself, ← hres, hr.scale]
    · rw [← hself, ← hres, hr.unscaled, htruncate]
    · rw [SetScaleInBounds, if_pos he]
      trivial
    · rw [hres, hself, hscale]
    · rw [hres, hself, hvalue, htruncate]
    · rw [hres, hself, value_eq_scaled, value_eq_scaled, hscale, hvalue, he]
  · have hne : (s x).scale ≠ newScale := fun he => by rw [he] at hgt; omega
    have hiff := setScale_down_iff outside (s res) hm h' hgt
    rw [if_neg hne]
    rw [if_pos hgt] at htruncate
    constructor
    · intro hr
      refine hiff.mp ⟨hr.inBounds, ?_⟩
      rw [← hres, hr.unscaled, htruncate]
    · intro hr
      obtain ⟨hbounds, hvalue⟩ := hiff.mpr hr
      obtain ⟨q, -, hset, -⟩ := setScale_down outside (s res) hm h' hgt
      refine ⟨hbounds, by rw [hres, hset], by rw [hres, hvalue, htruncate], fun hle => ?_, hothers⟩
      have := Int32.le_iff_toInt_le.mp hle
      omega

/-- `-123.45` with one digit after the point, in place. -/
theorem setScale_iff_in_place : Rescaled .zeros (fun _ => ⟨2, assignInt64 (-12345)⟩) 0 1 0 :=
  (setScale_iff .zeros (s := fun _ => ⟨2, assignInt64 (-12345)⟩) (canonical_assignInt64 (-12345)).normal
    (by decide) (by decide)).mpr (.inl (by decide))

/-- **A scale that is there already**: the result keeps what it was, a zero,
and not the 5 asked for. -/
theorem setScale_not_rescaled :
    let s : Objects := fun x => if x = 0 then ⟨0, assignInt64 5⟩ else zero
    (runSetScale .zeros s 0 0 1 1).magnitude.toInt = 0 ∧ ¬ Rescaled .zeros s 0 0 1 := by
  refine ⟨by decide, fun h => ?_⟩
  have hunscaled := h.unscaled
  rw [truncate_value] at hunscaled
  exact absurd hunscaled (by decide)

/-! ## Comparison -/

section Compare

variable {outside : Outside} {x y z : Decimal}

/-- Two numbers of one scale. -/
theorem orders_scaled {b other : BigInteger} (h : b.Canonical) (h' : other.Canonical) (s : Int) :
    Orders (b.compare other false) (scaled 10 b.toInt s) (scaled 10 other.toInt s) :=
  (compare_orders h h').map (f := fun m => scaled 10 m s) fun _ _ hlt => scaled_lt_scaled (by decide) s hlt

theorem orders_zero (h : (x.isZero && y.isZero) = true) : Orders 0 x.value y.value := by
  rw [Bool.and_eq_true, isZero, isZero, isZero_iff, isZero_iff] at h
  rw [value_eq_scaled, value_eq_scaled, toInt, toInt, h.1, h.2]
  exact ⟨by simp [scaled], by simp [scaled], by simp [scaled]⟩

/-- `Compare` compares the numbers where it can take the difference of the
scales and its opposite. -/
theorem orders_compare (hx : x.magnitude.Canonical) (hy : y.magnitude.Canonical)
    (h : -2 ^ 31 < x.scale.toInt - y.scale.toInt) (h' : x.scale.toInt - y.scale.toInt < 2 ^ 31) :
    Orders (compare outside x y) x.value y.value := by
  unfold compare
  split
  · next hzero => exact orders_zero hzero
  · split
    · next heq =>
      rw [value_eq_scaled, value_eq_scaled, heq]
      exact orders_scaled hx hy _
    · next hne =>
      have hne' : x.scale.toInt ≠ y.scale.toInt := fun he => hne (Int32.toInt_inj.mp he)
      split
      · next hgt =>
        have hlt := Int32.lt_iff_toInt_lt.mp hgt
        have hlow : -2 ^ 31 < y.scale.toInt - x.scale.toInt := by omega
        obtain ⟨_, -, -, hset, -⟩ := setScale_up outside zero hlow hlt
        have hcanonical := canonical_setScale_up outside zero hlow hlt hy
        rw [← value_setScale_up outside zero hlow hlt, value_eq_scaled, value_eq_scaled,
          congrArg scale hset]
        exact orders_scaled hx hcanonical _
      · next hgt =>
        have hlt : x.scale.toInt < y.scale.toInt := by
          have := mt Int32.lt_iff_toInt_lt.mpr hgt
          omega
        obtain ⟨_, -, -, hset, -⟩ := setScale_up outside zero h hlt
        have hcanonical := canonical_setScale_up outside zero h hlt hx
        rw [← value_setScale_up outside zero h hlt, value_eq_scaled, value_eq_scaled,
          congrArg scale hset]
        exact orders_scaled hcanonical hy _

theorem compareInBounds_iff (h : -2 ^ 31 ≤ x.scale.toInt - y.scale.toInt) (h' : x.scale.toInt - y.scale.toInt < 2 ^ 31) :
    CompareInBounds outside x y ↔ (x.isZero && y.isZero) = true ∨ -2 ^ 31 < x.scale.toInt - y.scale.toInt := by
  unfold CompareInBounds
  split
  · next hzero => exact ⟨fun _ => .inl hzero, fun _ => trivial⟩
  · next hzero =>
    split
    · next hgt =>
      have hlt := Int32.lt_iff_toInt_lt.mp hgt
      have hiff := (@setScale_up_iff outside y x.scale (by omega) hlt).1
      exact ⟨fun _ => .inr (by omega), fun _ => hiff.mpr (by omega)⟩
    · next hgt =>
      have hle : x.scale.toInt ≤ y.scale.toInt := by
        have := mt Int32.lt_iff_toInt_lt.mpr hgt
        omega
      rcases Int.lt_or_eq_of_le hle with hlt | heq
      · rw [(setScale_up_iff outside h hlt).1]
        exact ⟨.inr, fun hor => hor.resolve_left hzero⟩
      · rw [SetScaleInBounds, if_pos (Int32.toInt_inj.mp heq)]
        exact ⟨fun _ => .inr (by omega), fun _ => trivial⟩

end Compare

/-- The scales of two numbers differ by less than `2 ^ 31`. -/
def Comparable (x y : Decimal) : Prop :=
  -2 ^ 31 < x.scale.toInt - y.scale.toInt ∧ x.scale.toInt - y.scale.toInt < 2 ^ 31

theorem Comparable.symm {x y : Decimal} (h : Comparable x y) : Comparable y x := by
  obtain ⟨hlow, hhigh⟩ := h
  exact ⟨by omega, by omega⟩

/-- **`Compare` is the order of the rationals** unless the difference of the
scales is `-2 ^ 31`, and so it is total, antisymmetric and transitive. -/
theorem compare_rational_iff (outside : Outside) :
    (∀ x y : Decimal, x.magnitude.Canonical → y.magnitude.Canonical →
      -2 ^ 31 ≤ x.scale.toInt - y.scale.toInt → x.scale.toInt - y.scale.toInt < 2 ^ 31 →
      (CompareInBounds outside x y ∧ Orders (compare outside x y) x.value y.value ↔
        (x.isZero && y.isZero) = true ∨ -2 ^ 31 < x.scale.toInt - y.scale.toInt)) ∧
    (∀ x y : Decimal, x.magnitude.Canonical → y.magnitude.Canonical → Comparable x y →
      (compare outside x y ≤ 0 ∨ compare outside y x ≤ 0) ∧
      (compare outside x y ≤ 0 → compare outside y x ≤ 0 → x.value = y.value)) ∧
    ∀ x y z : Decimal, x.magnitude.Canonical → y.magnitude.Canonical → z.magnitude.Canonical →
      Comparable x y → Comparable y z → Comparable x z →
      compare outside x y ≤ 0 → compare outside y z ≤ 0 → compare outside x z ≤ 0 := by
  have hright : ∀ x y : Decimal, x.magnitude.Canonical → y.magnitude.Canonical → Comparable x y →
      Orders (compare outside x y) x.value y.value := fun x y hx hy h => orders_compare hx hy h.1 h.2
  refine ⟨fun x y hx hy h h' => ?_, fun x y hx hy h => ?_, fun x y z hx hy hz hxy hyz hxz => ?_⟩
  · rw [compareInBounds_iff h h']
    refine ⟨And.left, fun hor => ⟨hor, ?_⟩⟩
    rcases hor with hzero | hlow
    · rw [compare, if_pos hzero]
      exact orders_zero hzero
    · exact orders_compare hx hy hlow h'
  · have hxy := hright x y hx hy h
    have hyx := hright y x hy hx h.symm
    exact ⟨hxy.total hyx, hxy.antisymm hyx⟩
  · exact (hright x y hx hy hxy).trans (hright y z hy hz hyz) (hright x z hx hz hxz)

/-- `-12.345` is less than `-12.34`. -/
theorem compare_rational_iff_negative :
    Orders (compare .zeros ⟨3, assignInt64 (-12345)⟩ ⟨2, assignInt64 (-1234)⟩)
      (⟨3, assignInt64 (-12345)⟩ : Decimal).value (⟨2, assignInt64 (-1234)⟩ : Decimal).value :=
  (((compare_rational_iff .zeros).1 ⟨3, assignInt64 (-12345)⟩ ⟨2, assignInt64 (-1234)⟩ (canonical_assignInt64 (-12345))
    (canonical_assignInt64 (-1234)) (by decide) (by decide)).mpr (.inr (by decide))).2

/-- **A difference without an opposite**: `10 ^ (2 ^ 31)` is below `1` where a
zero stands in front of the table of powers. -/
theorem compare_not_rational :
    compare .zeros ⟨-2147483648, assignInt64 1⟩ ⟨0, assignInt64 1⟩ = -1 ∧
      (⟨0, assignInt64 1⟩ : Decimal).value < (⟨-2147483648, assignInt64 1⟩ : Decimal).value ∧
      ¬ Orders (compare .zeros ⟨-2147483648, assignInt64 1⟩ ⟨0, assignInt64 1⟩)
        (⟨-2147483648, assignInt64 1⟩ : Decimal).value (⟨0, assignInt64 1⟩ : Decimal).value := by
  have hcompare : compare .zeros ⟨-2147483648, assignInt64 1⟩ ⟨0, assignInt64 1⟩ = -1 := by decide
  have hlt : ∀ s : Int32, s.toInt < 0 → (⟨0, assignInt64 1⟩ : Decimal).value < (⟨s, assignInt64 1⟩ : Decimal).value := by
    intro s hs
    have hpow := one_lt_zpow₀ (by norm_num : (1 : Rat) < 10) (by omega : 0 < -s.toInt)
    simp only [value, toInt_assignInt64, Int32.toInt_zero, neg_zero, zpow_zero, mul_one]
    rw [show ((1 : Int64).toInt : Rat) = 1 from rfl, one_mul]
    exact hpow
  refine ⟨hcompare, hlt _ (by decide), fun h => ?_⟩
  rw [hcompare] at h
  exact absurd (h.neg.mp (by decide)) (not_lt.mpr (hlt _ (by decide)).le)

end Common.Decimal

end DocumentDbOdbc
