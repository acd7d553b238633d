/-
Algorithm D of `BigInteger::Divide`, for divisors of two limbs and more.

The estimate of a round is the quotient of the three leading limbs by the two
of the divisor (`estimate_eq`). The round does not notice when that is above
the digit, because it compares an unsigned difference with zero: the loop is
long division when no estimate is (`divideLoop_spec`), as for divisors of two
limbs, and gives too large a quotient otherwise.
-/
import DocumentDbOdbc.BigIntegerBits

namespace DocumentDbOdbc

open Limbs

namespace BigInteger

/-! ## Shifting arrays -/

section Shift

variable {n : UInt32} (hn : 0 < n.toNat) (hn' : n.toNat < 32)

/-- The bits of a limb, in two parts. -/
theorem two_pow_limb (h : n.toNat < 32) : 2 ^ 32 = 2 ^ n.toNat * 2 ^ (32 - n.toNat) := by
  rw [← Nat.pow_add]
  congr 1
  omega

/-- A limb in front of limbs that are divided by a power of two. -/
theorem value_cons_div (h : n.toNat < 32) (x : UInt32) (l : MagArray) :
    value (x :: l) / 2 ^ n.toNat = x.toNat / 2 ^ n.toNat + 2 ^ (32 - n.toNat) * value l := by
  rw [value_cons, two_pow_limb h, Nat.mul_assoc, Nat.add_mul_div_left _ _ (Nat.two_pow_pos _)]

include hn hn'

theorem toNat_sub_shift : (32 - n).toNat = 32 - n.toNat :=
  UInt32.toNat_sub_of_le 32 n (UInt32.le_iff_toNat_le.mpr (by show n.toNat ≤ 32; omega))

/-- The bits that leave a limb shifted left. -/
theorem toNat_overflow (x : UInt32) : x.toNat * 2 ^ n.toNat / 2 ^ 32 = (x >>> (32 - n)).toNat := by
  have hsub := toNat_sub_shift hn hn'
  have hpow : 2 ^ 32 = 2 ^ (32 - n.toNat) * 2 ^ n.toNat := (two_pow_limb hn').trans (Nat.mul_comm _ _)
  rw [toNat_shiftRight _ _ (by omega), hsub, hpow, Nat.mul_div_mul_right _ _ (Nat.two_pow_pos _)]

/-- A limb shifted left, and the bits that leave it. -/
theorem shiftLeft_limb (x below : UInt32) :
    (x <<< n ||| below >>> (32 - n)).toNat + 2 ^ 32 * (x >>> (32 - n)).toNat =
      x.toNat * 2 ^ n.toNat + (below >>> (32 - n)).toNat := by
  have hsub := toNat_sub_shift hn hn'
  have hpow := two_pow_limb hn'
  have hbelow : (below >>> (32 - n)).toNat < 2 ^ n.toNat := by
    rw [toNat_shiftRight _ _ (by omega), hsub, Nat.div_lt_iff_lt_mul (Nat.two_pow_pos _), ← hpow]
    exact below.toNat_lt
  have hleft : x.toNat * 2 ^ n.toNat % 2 ^ 32 = 2 ^ n.toNat * (x.toNat % 2 ^ (32 - n.toNat)) := by
    rw [Nat.mul_comm, hpow, Nat.mul_mod_mul_left]
  rw [UInt32.toNat_or, toNat_shiftLeft _ _ hn', hleft, ← Nat.two_pow_add_eq_or_of_lt hbelow,
    toNat_shiftRight x _ (by omega), hsub]
  have hdiv := Nat.mod_add_div x.toNat (2 ^ (32 - n.toNat))
  calc 2 ^ n.toNat * (x.toNat % 2 ^ (32 - n.toNat)) + (below >>> (32 - n)).toNat +
          2 ^ 32 * (x.toNat / 2 ^ (32 - n.toNat))
      = 2 ^ n.toNat * (x.toNat % 2 ^ (32 - n.toNat) + 2 ^ (32 - n.toNat) * (x.toNat / 2 ^ (32 - n.toNat))) +
          (below >>> (32 - n)).toNat := by rw [hpow]; ring
    _ = x.toNat * 2 ^ n.toNat + (below >>> (32 - n)).toNat := by rw [hdiv]; ring

theorem shiftLeftFrom_spec : ∀ (l : MagArray) (below : UInt32),
    (shiftLeftFrom n below l).length = l.length ∧
      value (shiftLeftFrom n below l) + (2 ^ 32) ^ l.length * (l.getLastD below >>> (32 - n)).toNat =
        value l * 2 ^ n.toNat + (below >>> (32 - n)).toNat := by
  intro l
  induction l with
  | nil => intro below; simp [shiftLeftFrom]
  | cons x l ih =>
    intro below
    obtain ⟨hlen, hv⟩ := ih x
    have hlimb := shiftLeft_limb hn hn' x below
    have hlast : (x :: l).getLastD below = l.getLastD x := by cases l <;> rfl
    refine ⟨congrArg Nat.succ hlen, ?_⟩
    rw [shiftLeftFrom, value_cons, pow_length_cons, value_cons, hlast]
    calc (x <<< n ||| below >>> (32 - n)).toNat + 2 ^ 32 * value (shiftLeftFrom n x l) +
            2 ^ 32 * (2 ^ 32) ^ l.length * (l.getLastD x >>> (32 - n)).toNat
        = (x <<< n ||| below >>> (32 - n)).toNat + 2 ^ 32 * (value (shiftLeftFrom n x l) +
            (2 ^ 32) ^ l.length * (l.getLastD x >>> (32 - n)).toNat) := by ring
      _ = (x <<< n ||| below >>> (32 - n)).toNat + 2 ^ 32 * (x >>> (32 - n)).toNat +
            2 ^ 32 * (value l * 2 ^ n.toNat) := by rw [hv]; ring
      _ = (x.toNat + 2 ^ 32 * value l) * 2 ^ n.toNat + (below >>> (32 - n)).toNat := by rw [hlimb]; ring

omit hn' in
theorem shiftLeft_eq (l : MagArray) : shiftLeft l n = shiftLeftFrom n 0 l := by
  have hne : n ≠ 0 := fun h => by simp [h] at hn
  unfold shiftLeft
  rw [if_neg hne]
  cases l with
  | nil => rfl
  | cons x l => rw [shiftLeftFrom, UInt32.zero_shiftRight, UInt32.or_zero]

/-- The bits of a limb that come down with the one above it. -/
theorem shiftRight_limb (x y : UInt32) :
    (x >>> n ||| y <<< (32 - n)).toNat + 2 ^ 32 * (y.toNat / 2 ^ n.toNat) =
      x.toNat / 2 ^ n.toNat + 2 ^ (32 - n.toNat) * y.toNat := by
  have hsub := toNat_sub_shift hn hn'
  have hpow : 2 ^ 32 = 2 ^ (32 - n.toNat) * 2 ^ n.toNat := (two_pow_limb hn').trans (Nat.mul_comm _ _)
  have hx : x.toNat / 2 ^ n.toNat < 2 ^ (32 - n.toNat) := by
    rw [Nat.div_lt_iff_lt_mul (Nat.two_pow_pos _), ← hpow]
    exact x.toNat_lt
  have hleft : y.toNat * 2 ^ (32 - n.toNat) % 2 ^ 32 = 2 ^ (32 - n.toNat) * (y.toNat % 2 ^ n.toNat) := by
    rw [Nat.mul_comm, hpow, Nat.mul_mod_mul_left]
  rw [UInt32.toNat_or, toNat_shiftRight _ _ hn', toNat_shiftLeft _ _ (by omega), hsub, hleft, Nat.or_comm,
    ← Nat.two_pow_add_eq_or_of_lt hx]
  have hdiv := Nat.mod_add_div y.toNat (2 ^ n.toNat)
  calc 2 ^ (32 - n.toNat) * (y.toNat % 2 ^ n.toNat) + x.toNat / 2 ^ n.toNat + 2 ^ 32 * (y.toNat / 2 ^ n.toNat)
      = x.toNat / 2 ^ n.toNat +
          2 ^ (32 - n.toNat) * (y.toNat % 2 ^ n.toNat + 2 ^ n.toNat * (y.toNat / 2 ^ n.toNat)) := by
        rw [hpow]; ring
    _ = x.toNat / 2 ^ n.toNat + 2 ^ (32 - n.toNat) * y.toNat := by rw [hdiv]

theorem shiftRightLoop_spec : ∀ l : MagArray,
    (shiftRightLoop n l).length = l.length ∧ value (shiftRightLoop n l) = value l / 2 ^ n.toNat := by
  intro l
  induction l with
  | nil => exact ⟨rfl, by simp [shiftRightLoop]⟩
  | cons x l ih =>
    cases l with
    | nil =>
      refine ⟨rfl, ?_⟩
      rw [shiftRightLoop, value_cons_div hn']
      simp [toNat_shiftRight _ _ hn']
    | cons y l =>
      obtain ⟨hlen, hv⟩ := ih
      refine ⟨congrArg Nat.succ hlen, ?_⟩
      have hlimb := shiftRight_limb hn hn' x y
      have hpow := two_pow_limb hn'
      rw [shiftRightLoop, value_cons, hv, value_cons_div hn' x, value_cons_div hn' y, value_cons]
      calc (x >>> n ||| y <<< (32 - n)).toNat + 2 ^ 32 * (y.toNat / 2 ^ n.toNat + 2 ^ (32 - n.toNat) * value l)
          = (x >>> n ||| y <<< (32 - n)).toNat + 2 ^ 32 * (y.toNat / 2 ^ n.toNat) +
              2 ^ 32 * (2 ^ (32 - n.toNat) * value l) := by ring
        _ = x.toNat / 2 ^ n.toNat + 2 ^ (32 - n.toNat) * (y.toNat + 2 ^ 32 * value l) := by rw [hlimb]; ring

end Shift

/-- `ShiftRight` divides. -/
theorem value_shiftRight {n : UInt32} (hn : n.toNat < 32) (l : MagArray) :
    value (shiftRight l n) = value l / 2 ^ n.toNat := by
  unfold shiftRight
  split
  · next h => simp [h]
  · next h =>
    have hpos : 0 < n.toNat := Nat.pos_of_ne_zero fun h0 => h (UInt32.toNat_inj.mp h0)
    exact (shiftRightLoop_spec hpos hn l).2

/-- `ShiftLeft` multiplies, short of the bits that leave the top limb. -/
theorem shiftLeft_spec {n : UInt32} (hn : n.toNat < 32) (l : MagArray) :
    (shiftLeft l n).length = l.length ∧
      value (shiftLeft l n) + (2 ^ 32) ^ l.length * ((l.getLastD 0).toNat * 2 ^ n.toNat / 2 ^ 32) =
        value l * 2 ^ n.toNat := by
  by_cases h : n = 0
  · subst h
    have hzero : (l.getLastD 0).toNat * 2 ^ (0 : UInt32).toNat / 2 ^ 32 = 0 := by
      rw [UInt32.toNat_zero, pow_zero, Nat.mul_one]
      exact Nat.div_eq_of_lt (l.getLastD 0).toNat_lt
    rw [hzero]
    simp [shiftLeft]
  · have hpos : 0 < n.toNat := Nat.pos_of_ne_zero fun h0 => h (UInt32.toNat_inj.mp h0)
    obtain ⟨hlen, hv⟩ := shiftLeftFrom_spec hpos hn l 0
    rw [UInt32.zero_shiftRight, UInt32.toNat_zero, Nat.add_zero] at hv
    rw [shiftLeft_eq hpos, toNat_overflow hpos hn]
    exact ⟨hlen, hv⟩

/-! ## Multiply and subtract -/

theorem toNat_ofInt (z : Int) : ((UInt32.ofInt z).toNat : Int) = z % 2 ^ 32 := by
  have h := Int.emod_nonneg z (by decide : (2 : Int) ^ 32 ≠ 0)
  have hlt := Int.emod_lt_of_pos z (by decide : (0 : Int) < 2 ^ 32)
  rw [UInt32.ofInt, UInt32.toNat_ofNat', Nat.mod_eq_of_lt (by omega)]
  omega

/-- A multiple is subtracted; the carry is what is missing above. -/
theorem multiplyAndSubstruct_spec (x : UInt32) : ∀ {qs as : MagArray} {carry : Int}, qs.length = as.length →
    (multiplyAndSubstruct x carry qs as).1.length = qs.length ∧
      (value (multiplyAndSubstruct x carry qs as).1 : Int) =
        value qs - value as * x.toNat - carry + ((2 ^ 32) ^ qs.length : Nat) * (multiplyAndSubstruct x carry qs as).2 := by
  intro qs
  induction qs with
  | nil =>
    intro as carry hlen
    rw [List.length_eq_zero_iff.mp hlen.symm]
    exact ⟨rfl, by simp [multiplyAndSubstruct]⟩
  | cons q qs ih =>
    intro as carry hlen
    obtain _ | ⟨a, as⟩ := as
    · simp at hlen
    · obtain ⟨difference, hd⟩ : ∃ d : Int, d = q.toNat - carry - (a.toNat * x.toNat % 2 ^ 32 : Nat) := ⟨_, rfl⟩
      obtain ⟨hlen', hv⟩ := @ih as
        ((a.toNat * x.toNat / 2 ^ 32 : Nat) - difference / 2 ^ 32) (by simpa using hlen)
      have hlimb := toNat_ofInt difference
      have hproduct : ((a.toNat * x.toNat % 2 ^ 32 : Nat) : Int) + 2 ^ 32 * (a.toNat * x.toNat / 2 ^ 32 : Nat) =
          a.toNat * x.toNat := by exact_mod_cast Nat.mod_add_div (a.toNat * x.toNat) (2 ^ 32)
      have hdiv := Int.emod_add_mul_ediv difference (2 ^ 32)
      simp only [multiplyAndSubstruct, ← hd]
      refine ⟨congrArg Nat.succ hlen', ?_⟩
      simp only [value_cons, pow_length_cons]
      generalize (2 ^ 32) ^ qs.length = B at hv ⊢
      generalize a.toNat * x.toNat / 2 ^ 32 = high at hv hproduct ⊢
      generalize a.toNat * x.toNat % 2 ^ 32 = low at hd hproduct
      generalize difference / 2 ^ 32 = borrow at hv hdiv ⊢
      push_cast
      rw [hlimb, hv]
      linarith

/-! ## The estimated quotient -/

section Estimate

variable {v₁ v₀ w₀ : UInt32} {w : Nat}

/-- The loop comes down to the quotient of `w w₀` by `v₁ v₀`: the test tells
whether the estimate is above it, and a `rhat` past one limb that it is not. -/
theorem adjustQuotient_loop (hv : 0 < v₁.toNat)
    (hq : (w * 2 ^ 32 + w₀.toNat) / (v₁.toNat * 2 ^ 32 + v₀.toNat) < 2 ^ 32) : ∀ {fuel qhat rhat : Nat},
    rhat < 2 ^ 32 → 2 ^ 32 ≤ rhat + fuel * v₁.toNat → qhat * v₁.toNat + rhat = w → qhat ≤ 2 ^ 32 + 1 →
    (w * 2 ^ 32 + w₀.toNat) / (v₁.toNat * 2 ^ 32 + v₀.toNat) ≤ qhat →
    adjustQuotient v₁ v₀ w₀ fuel qhat rhat = (w * 2 ^ 32 + w₀.toNat) / (v₁.toNat * 2 ^ 32 + v₀.toNat) := by
  have hpos : 0 < v₁.toNat * 2 ^ 32 + v₀.toNat := by omega
  have hv₀ := v₀.toNat_lt
  intro fuel
  induction fuel with
  | zero =>
    intro qhat rhat hr hfuel
    omega
  | succ fuel ih =>
    intro qhat rhat hr hfuel hw hbound hle
    unfold adjustQuotient
    split
    · next htest =>
      have hlt : (w * 2 ^ 32 + w₀.toNat) / (v₁.toNat * 2 ^ 32 + v₀.toNat) < qhat := by
        rcases htest with htest | htest
        · omega
        · exact trial_gt hw htest hpos
      have hw' : (qhat - 1) * v₁.toNat + (rhat + v₁.toNat) = w := by
        obtain ⟨q, rfl⟩ := Nat.exists_eq_succ_of_ne_zero (Nat.ne_zero_of_lt hlt)
        rw [← hw, Nat.succ_sub_one, Nat.succ_mul]
        omega
      dsimp only
      split
      · next hr' =>
        refine Nat.le_antisymm (trial_le hw' ?_ hpos) (Nat.le_sub_one_of_lt hlt)
        calc (qhat - 1) * v₀.toNat ≤ 2 ^ 32 * (rhat + v₁.toNat) := Nat.mul_le_mul (by omega) (by omega)
          _ ≤ 2 ^ 32 * (rhat + v₁.toNat) + w₀.toNat := Nat.le_add_right _ _
      · next hr' =>
        refine ih (by omega) ?_ hw' (by omega) (Nat.le_sub_one_of_lt hlt)
        rw [Nat.succ_mul] at hfuel
        omega
    · next htest =>
      rw [not_or, not_lt, not_lt] at htest
      exact Nat.le_antisymm (trial_le hw htest.2 hpos) hle

/-- Two turns are enough for the loop: `rhat` is past one limb then. -/
theorem adjustQuotient_fuel (hv : 2 ^ 31 ≤ v₁.toNat) (fuel qhat rhat : Nat) :
    adjustQuotient v₁ v₀ w₀ (fuel + 2) qhat rhat = adjustQuotient v₁ v₀ w₀ 2 qhat rhat := by
  have hsecond : ∀ fuel qhat, adjustQuotient v₁ v₀ w₀ (fuel + 1) qhat (rhat + v₁.toNat) =
      adjustQuotient v₁ v₀ w₀ 1 qhat (rhat + v₁.toNat) := by
    intro fuel qhat
    have hpast : rhat + v₁.toNat + v₁.toNat > 2 ^ 32 - 1 := by omega
    rw [adjustQuotient, adjustQuotient]
    simp only [if_pos hpast]
  rw [adjustQuotient, adjustQuotient]
  simp only [hsecond fuel]

/-- Three limbs over two: the estimate is their quotient. -/
theorem adjustQuotient_eq (hv : 2 ^ 31 ≤ v₁.toNat)
    (hq : (w * 2 ^ 32 + w₀.toNat) / (v₁.toNat * 2 ^ 32 + v₀.toNat) < 2 ^ 32) :
    adjustQuotient v₁ v₀ w₀ 2 (w / v₁.toNat) (w % v₁.toNat) =
      (w * 2 ^ 32 + w₀.toNat) / (v₁.toNat * 2 ^ 32 + v₀.toNat) := by
  have hv₁ := v₁.toNat_lt
  have hv₀ := v₀.toNat_lt
  have hmod := Nat.mod_lt w (by omega : v₁.toNat > 0)
  refine adjustQuotient_loop (by omega) hq (by omega) (by omega) (Nat.div_add_mod' w v₁.toNat) ?_
    (le_trial (by decide) (by omega) w₀.toNat_lt)
  have hw : w * 2 ^ 32 + w₀.toNat < 2 ^ 32 * (v₁.toNat * 2 ^ 32 + v₀.toNat) :=
    (Nat.div_lt_iff_lt_mul (by omega)).mp hq
  rw [← Nat.lt_succ_iff, Nat.div_lt_iff_lt_mul (by omega)]
  omega

/-- Leading limbs that are not above those of the divisor: the estimate is a
digit. -/
theorem adjustQuotient_min (hv : 2 ^ 31 ≤ v₁.toNat) (hw : w ≤ v₁.toNat * 2 ^ 32 + v₀.toNat) :
    adjustQuotient v₁ v₀ w₀ 2 (w / v₁.toNat) (w % v₁.toNat) =
      min (2 ^ 32 - 1) ((w * 2 ^ 32 + w₀.toNat) / (v₁.toNat * 2 ^ 32 + v₀.toNat)) := by
  have hv₁ := v₁.toNat_lt
  have hv₀ := v₀.toNat_lt
  have hw₀ := w₀.toNat_lt
  rcases Nat.lt_or_ge w (v₁.toNat * 2 ^ 32 + v₀.toNat) with hlt | hge
  · have hq : (w * 2 ^ 32 + w₀.toNat) / (v₁.toNat * 2 ^ 32 + v₀.toNat) < 2 ^ 32 := by
      rw [Nat.div_lt_iff_lt_mul (by omega)]
      omega
    rw [adjustQuotient_eq hv hq]
    omega
  · -- The leading limbs are those of the divisor, and the estimate starts above a digit.
    obtain rfl : w = v₁.toNat * 2 ^ 32 + v₀.toNat := Nat.le_antisymm hw hge
    have hq : 2 ^ 32 ≤ ((v₁.toNat * 2 ^ 32 + v₀.toNat) * 2 ^ 32 + w₀.toNat) / (v₁.toNat * 2 ^ 32 + v₀.toNat) := by
      rw [Nat.le_div_iff_mul_le (by omega), Nat.mul_comm]
      exact Nat.le_add_right _ _
    have hdiv : (v₁.toNat * 2 ^ 32 + v₀.toNat) / v₁.toNat = 2 ^ 32 + v₀.toNat / v₁.toNat :=
      Nat.mul_add_div (by omega) _ _
    have hmod : (v₁.toNat * 2 ^ 32 + v₀.toNat) % v₁.toNat = v₀.toNat % v₁.toNat := Nat.mul_add_mod _ _ _
    rw [Nat.min_eq_left (by omega), hdiv, hmod]
    rcases Nat.lt_or_ge v₀.toNat v₁.toNat with hsmall | hlarge
    · rw [Nat.div_eq_of_lt hsmall, Nat.mod_eq_of_lt hsmall, adjustQuotient, if_pos (.inl (by omega))]
      dsimp only
      split
      · rfl
      · rw [adjustQuotient, if_neg]
        · rfl
        · omega
    · have hone : v₀.toNat / v₁.toNat = 1 := Nat.div_eq_of_lt_le (by omega) (by omega)
      have hrest : v₀.toNat % v₁.toNat = v₀.toNat - v₁.toNat := by
        rw [Nat.mod_eq_sub_mod hlarge, Nat.mod_eq_of_lt (by omega)]
      rw [hone, hrest, adjustQuotient, if_pos (.inl (by omega))]
      dsimp only
      rw [if_neg (by omega), adjustQuotient, if_pos (.inl (by omega))]
      dsimp only
      rw [if_pos (by omega)]
      rfl

end Estimate

/-! ## A round -/

theorem exists_two_top {l : MagArray} (h : 2 ≤ l.length) : ∃ l' x y, l = l' ++ [x, y] ∧ l'.length = l.length - 2 := by
  obtain rfl | ⟨l, y, rfl⟩ := eq_nil_or_concat l
  · simp at h
  · obtain rfl | ⟨l, x, rfl⟩ := eq_nil_or_concat l
    · simp at h
    · exact ⟨l, x, y, by simp, by simp⟩

/-- The limbs of a number above its lowest ones. -/
theorem value_append_div (l l' : MagArray) : value (l ++ l') / (2 ^ 32) ^ l.length = value l' := by
  rw [value_append, Nat.add_mul_div_left _ _ (Nat.pow_pos (by decide)), Nat.div_eq_of_lt (value_lt l), Nat.zero_add]

/-- **The estimate** is the trial quotient: three limbs of the dividend over
two of the divisor. -/
theorem estimate_eq (outside : Outside) {nv window : MagArray} (low high : MagArray) {top : UInt32} (hnv : 2 ≤ nv.length)
    (htop : 2 ^ 31 ≤ (nv.getLastD 0).toNat) (hlen : window.length = nv.length)
    (hlt : value (window ++ [top]) < 2 ^ 32 * value nv) :
    estimate outside nv (low ++ window ++ top :: high) low.length =
      trialQuotient (2 ^ 32) nv.length (value (window ++ [top])) (value nv) := by
  obtain ⟨v, v₀, v₁, rfl, hvlen⟩ := exists_two_top hnv
  obtain ⟨w, w₀, w₁, rfl, hwlen⟩ := exists_two_top (hlen ▸ hnv)
  have hv₁ : 2 ^ 31 ≤ v₁.toNat := by simpa using htop
  have hlength : (v ++ [v₀, v₁]).length = v.length + 2 := by simp
  have hwv : w.length = v.length := by
    rw [hwlen, hlen, hlength]
    rfl
  have hdivisor : value (v ++ [v₀, v₁]) / (2 ^ 32) ^ v.length = v₁.toNat * 2 ^ 32 + v₀.toNat := by
    rw [value_append_div]
    simp only [value_cons, value_nil]
    ring
  have hwindow : value (w ++ [w₀, w₁] ++ [top]) / (2 ^ 32) ^ v.length =
      (top.toNat * 2 ^ 32 + w₁.toNat) * 2 ^ 32 + w₀.toNat := by
    rw [List.append_assoc, ← hwv, value_append_div]
    simp only [List.cons_append, List.nil_append, value_cons, value_nil]
    ring
  have hle : top.toNat * 2 ^ 32 + w₁.toNat ≤ v₁.toNat * 2 ^ 32 + v₀.toNat := by
    have hdiv := Nat.div_le_div_right (c := (2 ^ 32) ^ v.length) (Nat.div_lt_of_lt_mul hlt).le
    rw [Nat.div_div_eq_div_mul, Nat.mul_comm (2 ^ 32), ← Nat.div_div_eq_div_mul, hwindow, hdivisor] at hdiv
    omega
  have htop' : (low ++ (w ++ [w₀, w₁]) ++ top :: high).getD (low.length + v.length + 2) 0 = top := by
    rw [← hwv, Nat.add_assoc, List.getD_eq_getElem?_getD, List.getElem?_append_right (by simp)]
    simp
  have hw₁ : (low ++ (w ++ [w₀, w₁]) ++ top :: high).getD (low.length + v.length + 1) 0 = w₁ := by
    rw [← hwv, Nat.add_assoc, List.getD_eq_getElem?_getD, List.getElem?_append_left (by simp),
      List.getElem?_append_right (by simp)]
    simp
  have hw₀ : (low ++ (w ++ [w₀, w₁]) ++ top :: high).getD (low.length + v.length) 0 = w₀ := by
    rw [← hwv, List.getD_eq_getElem?_getD, List.getElem?_append_left (by simp), List.getElem?_append_right (by simp)]
    simp
  have hv₁' : (v ++ [v₀, v₁]).getD (v.length + 1) 0 = v₁ := by simp
  have hv₀' : (v ++ [v₀, v₁]).getD v.length 0 = v₀ := by simp
  rw [trialQuotient, hlength, Nat.add_sub_cancel, hdivisor, hwindow, ← adjustQuotient_min hv₁ hle]
  simp only [estimate, hlength, Nat.add_succ_sub_one, htop', hw₁, hv₁', wordBelow, ← Nat.add_assoc, hw₀, hv₀']

/-- The digit of a round is its estimate: an unsigned difference is not below
zero. -/
theorem divideRound_digit (outside : Outside) (nv nu : MagArray) (i : Nat) :
    (divideRound outside nv nu i).2 = UInt32.ofNat (estimate outside nv nu i) := by
  unfold divideRound
  dsimp only
  rw [if_neg (Int.not_lt.mpr (Int.natCast_nonneg _))]

/-- **A round with the right estimate** leaves the remainder of its window,
below a zero limb. -/
theorem divideRound_spec {outside : Outside} {nv low window high : MagArray} {top : UInt32} (hpos : 0 < value nv)
    (hlen : window.length = nv.length) (hq : value (window ++ [top]) / value nv < 2 ^ 32)
    (hestimate : estimate outside nv (low ++ window ++ top :: high) low.length = value (window ++ [top]) / value nv) :
    ∃ window', window'.length = nv.length ∧ value window' = value (window ++ [top]) % value nv ∧
      divideRound outside nv (low ++ window ++ top :: high) low.length =
        (low ++ window' ++ 0 :: high, UInt32.ofNat (value (window ++ [top]) / value nv)) := by
  obtain ⟨quotient, hquotient⟩ : ∃ q, q = value (window ++ [top]) / value nv := ⟨_, rfl⟩
  rw [← hquotient] at hq hestimate ⊢
  have htop : (low ++ window ++ top :: high).getD (low.length + nv.length) 0 = top := by
    rw [← hlen, ← List.length_append, List.getD_eq_getElem?_getD, List.getElem?_append_right (Nat.le_refl _),
      Nat.sub_self]
    rfl
  have hwindow : ((low ++ window ++ top :: high).drop low.length).take nv.length = window := by
    rw [List.append_assoc, List.drop_left, ← hlen, List.take_left]
  have hlow : (low ++ window ++ top :: high).take low.length = low := by
    rw [List.append_assoc, List.take_left]
  have hhigh : (low ++ window ++ top :: high).drop (low.length + nv.length + 1) = high := by
    rw [← hlen, ← List.length_append, ← List.drop_drop, List.drop_left]
    rfl
  have hdigit : (UInt32.ofNat quotient).toNat = quotient := by
    rw [UInt32.toNat_ofNat', Nat.mod_eq_of_lt hq]
  obtain ⟨hlen', hv⟩ := @multiplyAndSubstruct_spec (UInt32.ofNat quotient) _ _ 0 hlen
  rw [hdigit] at hv
  generalize hsub : multiplyAndSubstruct (UInt32.ofNat quotient) 0 window nv = sub at hlen' hv
  -- The remainder and the new window are both below the top limb, and a multiple of it apart.
  have hdivmod : value (window ++ [top]) = value nv * quotient + value (window ++ [top]) % value nv := by
    rw [hquotient]
    exact (Nat.div_add_mod _ _).symm
  have hrem : value (window ++ [top]) % value nv < (2 ^ 32) ^ window.length :=
    (Nat.mod_lt _ hpos).trans (hlen ▸ value_lt nv)
  have hnew := value_lt sub.1
  rw [hlen'] at hnew
  have hapart : (value sub.1 : Int) - (value (window ++ [top]) % value nv : Nat) =
      ((2 ^ 32) ^ window.length : Nat) * (sub.2 - top.toNat) := by
    rw [value_concat] at hdivmod ⊢
    generalize (value window + (2 ^ 32) ^ window.length * top.toNat) % value nv = r at hdivmod ⊢
    generalize (2 ^ 32) ^ window.length = B at hv hdivmod ⊢
    zify at hdivmod
    linarith
  have hvalue : value sub.1 = value (window ++ [top]) % value nv := by
    have hdiff := Int.eq_zero_of_abs_lt_dvd ⟨_, hapart⟩ (abs_lt.mpr ⟨by omega, by omega⟩)
    omega
  have hcarry : sub.2 = top.toNat := by
    rw [hvalue, Int.sub_self, eq_comm, Int.mul_eq_zero] at hapart
    have := hapart.resolve_left (by omega)
    omega
  refine ⟨sub.1, hlen'.trans hlen, hvalue, ?_⟩
  simp only [divideRound, hestimate, hwindow, hsub, htop, hlow, hhigh, hcarry]
  have hzero : top - UInt32.ofInt top.toNat = 0 := by
    have := UInt32.toNat_inj.mp (Int.natCast_inj.mp ((toNat_ofInt top.toNat).trans (Int.emod_eq_of_lt
      (Int.natCast_nonneg _) (by exact_mod_cast top.toNat_lt))))
    rw [this]
    exact UInt32.sub_self top
  rw [hzero]
  rfl

/-! ## The loop -/

theorem value_pos_of_concat {l : MagArray} {x : UInt32} (h : x ≠ 0) : 0 < value (l ++ [x]) :=
  (Nat.pow_pos (by decide)).trans_le (pow_le_value h)

/-- Every round gives one digit. -/
theorem divideLoop_digits (outside : Outside) (nv : MagArray) : ∀ (k : Nat) (nu q : MagArray),
    ∃ digits nu', digits.length = k ∧ divideLoop outside nv k nu q = (digits ++ q, nu') := by
  intro k
  induction k with
  | zero => exact fun nu q => ⟨[], nu, rfl, rfl⟩
  | succ k ih =>
    intro nu q
    obtain ⟨digits, nu', hlen, hloop⟩ := ih (divideRound outside nv nu k).1 ((divideRound outside nv nu k).2 :: q)
    refine ⟨digits ++ [(divideRound outside nv nu k).2], nu', by rw [List.length_append, hlen]; rfl, ?_⟩
    rw [List.append_assoc, List.singleton_append]
    exact hloop

/-- What a run of `k` rounds leaves: its digits are not below the quotient,
and with them goes the remainder, if the estimates are the digits. Above the
first estimate that is not, the digits are right. -/
structure LongDivision (nv : MagArray) (k n : Nat) (digits nu : MagArray) : Prop where
  length : digits.length = k
  le : n / value nv ≤ value digits
  exact : TrialsExact (2 ^ 32) nv.length k n (value nv) → value digits = n / value nv ∧
    ∃ rem high, nu = rem ++ high ∧ rem.length = nv.length ∧ value rem = n % value nv
  trials : value digits = n / value nv → TrialsExact (2 ^ 32) nv.length k n (value nv)
  above : ∀ j, (∀ i, j ≤ i → i < k → trialQuotient (2 ^ 32) nv.length (roundDividend (2 ^ 32) n (value nv) i) (value nv) =
    roundDividend (2 ^ 32) n (value nv) i / value nv) → value digits / (2 ^ 32) ^ j = n / value nv / (2 ^ 32) ^ j

section

variable {nv : MagArray} {k n w : Nat} {digits nu : MagArray}

/-- Above the limbs of a number there is nothing. -/
theorem div_pow_of_lt {m j : Nat} (hkj : k < j) (hm : m < (2 ^ 32) ^ (k + 1)) : m / (2 ^ 32) ^ j = 0 :=
  Nat.div_eq_of_lt (hm.trans_le (Nat.pow_le_pow_right (by decide) hkj))

/-- A round whose estimate is the digit: its multiple taken out, the rest of
the run divides what is left. -/
theorem LongDivision.concat {n' : Nat} (hpos : 0 < value nv) (hq : w / value nv < 2 ^ 32)
    (hround : roundDividend (2 ^ 32) n (value nv) k = w)
    (hexact : trialQuotient (2 ^ 32) nv.length w (value nv) = w / value nv)
    (htotal : n = n' + value nv * ((2 ^ 32) ^ k * (w / value nv))) (hsmall : n / value nv < (2 ^ 32) ^ (k + 1))
    (h : LongDivision nv k n' digits nu) :
    LongDivision nv (k + 1) n (digits ++ [UInt32.ofNat (w / value nv)]) nu := by
  have hdigit : (UInt32.ofNat (w / value nv)).toNat = w / value nv := by
    rw [UInt32.toNat_ofNat', Nat.mod_eq_of_lt hq]
  have hdiv : n / value nv = n' / value nv + (2 ^ 32) ^ k * (w / value nv) := by
    rw [htotal, Nat.add_mul_div_left _ _ hpos]
  have hmod : n % value nv = n' % value nv := by
    rw [htotal, Nat.add_mul_mod_self_left]
  have hvalue : value (digits ++ [UInt32.ofNat (w / value nv)]) = value digits + (2 ^ 32) ^ k * (w / value nv) := by
    rw [value_concat, h.length, hdigit]
  have hbelow : ∀ i < k, roundDividend (2 ^ 32) n (value nv) i = roundDividend (2 ^ 32) n' (value nv) i := by
    intro i hi
    rw [htotal]
    exact roundDividend_add (by decide) hi _
  have htrials : TrialsExact (2 ^ 32) nv.length (k + 1) n (value nv) ↔ TrialsExact (2 ^ 32) nv.length k n' (value nv) := by
    constructor
    · intro hall i hi
      have := hall i (Nat.lt_succ_of_lt hi)
      rwa [hbelow i hi] at this
    · intro hall i hi
      rcases Nat.lt_succ_iff_lt_or_eq.mp hi with hi | rfl
      · rw [hbelow i hi]
        exact hall i hi
      · rw [hround]
        exact hexact
  refine ⟨?_, ?_, fun hall => ?_, fun hright => ?_, fun j hj => ?_⟩
  · rw [List.length_append, h.length]
    rfl
  · rw [hdiv, hvalue]
    exact Nat.add_le_add_right h.le _
  · obtain ⟨hquot, hremainder⟩ := h.exact (htrials.mp hall)
    rw [hvalue, hdiv, hmod, hquot]
    exact ⟨rfl, hremainder⟩
  · rw [hvalue, hdiv] at hright
    exact htrials.mpr (h.trials (Nat.add_right_cancel hright))
  · rcases Nat.lt_or_ge k j with hkj | hjk
    · rw [div_pow_of_lt hkj (h.length ▸ value_concat_lt digits _), div_pow_of_lt hkj hsmall]
    · obtain ⟨t, rfl⟩ := Nat.exists_eq_add_of_le hjk
      have hrest := h.above j fun i hi hik => by
        rw [← hbelow i hik]
        exact hj i hi (Nat.lt_succ_of_lt hik)
      rw [hvalue, hdiv, Nat.pow_add, Nat.mul_assoc, Nat.add_mul_div_left _ _ (Nat.pow_pos (by decide)),
        Nat.add_mul_div_left _ _ (Nat.pow_pos (by decide)), hrest]

/-- A round whose estimate is not the digit, in a run whose quotient is too
large. -/
theorem LongDivision.of_lt {d : UInt32} (hlen : digits.length = k) (hround : roundDividend (2 ^ 32) n (value nv) k = w)
    (hexact : trialQuotient (2 ^ 32) nv.length w (value nv) ≠ w / value nv) (hsmall : n / value nv < (2 ^ 32) ^ (k + 1))
    (hlt : n / value nv < value (digits ++ [d])) : LongDivision nv (k + 1) n (digits ++ [d]) nu := by
  refine ⟨?_, hlt.le, fun hall => ?_, fun h => absurd h.symm hlt.ne, fun j hj => ?_⟩
  · rw [List.length_append, hlen]
    rfl
  · have := hall k (Nat.lt_succ_self k)
    rw [hround] at this
    exact absurd this hexact
  · rcases Nat.lt_or_ge k j with hkj | hjk
    · rw [div_pow_of_lt hkj (hlen ▸ value_concat_lt digits _), div_pow_of_lt hkj hsmall]
    · have := hj k hjk (Nat.lt_succ_self k)
      rw [hround] at this
      exact absurd this hexact

/-- A first digit that is too large makes the quotient too large, whatever
follows. -/
theorem div_lt_value_concat {r : Nat} {d : UInt32} (hpos : 0 < value nv) (hlen : digits.length = k) (hr : r < (2 ^ 32) ^ k)
    (hd : w / value nv + 1 ≤ d.toNat) : (r + (2 ^ 32) ^ k * w) / value nv < value (digits ++ [d]) := by
  rw [value_concat, hlen, Nat.div_lt_iff_lt_mul hpos]
  have hstep : w + 1 ≤ d.toNat * value nv := by
    have hdm := Nat.div_add_mod w (value nv)
    have hmod := Nat.mod_lt w hpos
    calc w + 1 ≤ (w / value nv + 1) * value nv := by
          rw [Nat.succ_mul, Nat.mul_comm]
          omega
      _ ≤ _ := Nat.mul_le_mul_right _ hd
  calc r + (2 ^ 32) ^ k * w
      < (2 ^ 32) ^ k * (w + 1) := by
        rw [Nat.mul_succ]
        omega
    _ ≤ (2 ^ 32) ^ k * (d.toNat * value nv) := Nat.mul_le_mul_left _ hstep
    _ ≤ _ := by
      rw [← Nat.mul_assoc, Nat.add_mul]
      exact Nat.le_add_left _ _

end

/-- A round whose estimate is too large makes the quotient too large. -/
theorem divideLoop_inexact {outside : Outside} {nv : MagArray} (hnv : 2 ≤ nv.length)
    (htop : 2 ^ 31 ≤ (nv.getLastD 0).toNat) (hpos : 0 < value nv) {k n : Nat} {low window high q : MagArray} {top : UInt32}
    (hlow : low.length = k) (hlen : window.length = nv.length)
    (hlarge : value (window ++ [top]) < 2 ^ 32 * value nv)
    (hn : n = value low + (2 ^ 32) ^ k * value (window ++ [top]))
    (hround : roundDividend (2 ^ 32) n (value nv) k = value (window ++ [top])) (hsmall : n / value nv < (2 ^ 32) ^ (k + 1))
    (hexact : trialQuotient (2 ^ 32) nv.length (value (window ++ [top])) (value nv) ≠ value (window ++ [top]) / value nv) :
    ∃ digits nu, divideLoop outside nv (k + 1) (low ++ window ++ top :: high) q = (digits ++ q, nu) ∧
      LongDivision nv (k + 1) n digits nu := by
  have hq : value (window ++ [top]) / value nv < 2 ^ 32 := by
    rwa [Nat.div_lt_iff_lt_mul hpos]
  have hgt : value (window ++ [top]) / value nv + 1 ≤
      trialQuotient (2 ^ 32) nv.length (value (window ++ [top])) (value nv) := by
    refine Nat.lt_of_le_of_ne (le_trialQuotient hq ?_) (Ne.symm hexact)
    obtain ⟨v, v₀, v₁, rfl, hvlen⟩ := exists_two_top hnv
    have hv₁ : 2 ^ 31 ≤ v₁.toNat := by simpa using htop
    rw [← hvlen, value_append_div, value_cons, value_cons]
    omega
  have hfit : trialQuotient (2 ^ 32) nv.length (value (window ++ [top])) (value nv) < 2 ^ 32 :=
    Nat.lt_of_le_of_lt (Nat.min_le_left _ _) (by decide)
  obtain ⟨digits, nu, hdigits, hloop⟩ := divideLoop_digits outside nv k
    (divideRound outside nv (low ++ window ++ top :: high) k).1
    ((divideRound outside nv (low ++ window ++ top :: high) k).2 :: q)
  have hdigit : (divideRound outside nv (low ++ window ++ top :: high) k).2.toNat =
      trialQuotient (2 ^ 32) nv.length (value (window ++ [top])) (value nv) := by
    rw [divideRound_digit, ← hlow, estimate_eq outside low high hnv htop hlen hlarge, UInt32.toNat_ofNat',
      Nat.mod_eq_of_lt hfit]
  have hlarger := div_lt_value_concat hpos hdigits (hlow ▸ value_lt low) (hdigit ▸ hgt)
  rw [← hn] at hlarger
  refine ⟨digits ++ [(divideRound outside nv (low ++ window ++ top :: high) k).2], nu, ?_,
    .of_lt hdigits hround hexact hsmall hlarger⟩
  rw [divideLoop, List.append_assoc digits]
  exact hloop

/-- **Long division.** The loop divides the limbs up to the divisor's length
above round `k`. -/
theorem divideLoop_spec {outside : Outside} {nv : MagArray} (hnv : 2 ≤ nv.length)
    (htop : 2 ^ 31 ≤ (nv.getLastD 0).toNat) (hpos : 0 < value nv) :
    ∀ {k : Nat} {low rest high q : MagArray}, low.length = k → rest.length = nv.length → value rest < value nv →
    ∃ digits nu, divideLoop outside nv k (low ++ rest ++ high) q = (digits ++ q, nu) ∧
      LongDivision nv k (value (low ++ rest)) digits nu := by
  intro k
  induction k with
  | zero =>
    intro low rest high q hlow hrest hlt
    rw [List.length_eq_zero_iff.mp hlow]
    refine ⟨[], rest ++ high, rfl, rfl, by simp [Nat.div_eq_of_lt hlt], fun _ => ⟨by simp [Nat.div_eq_of_lt hlt], ?_⟩,
      fun _ i hi => absurd hi (Nat.not_lt_zero i), fun j _ => by simp [Nat.div_eq_of_lt hlt]⟩
    exact ⟨rest, high, rfl, hrest, by simp [Nat.mod_eq_of_lt hlt]⟩
  | succ k ih =>
    intro low rest high q hlow hrest hlt
    obtain rfl | ⟨low, x, rfl⟩ := eq_nil_or_concat low
    · simp at hlow
    · have hlow : low.length = k := by simpa using hlow
      -- The window of the round: the new limb and the remainder so far.
      obtain ⟨window, top, hwindow⟩ : ∃ window top, x :: rest = window ++ [top] := by
        obtain h | h := eq_nil_or_concat (x :: rest)
        · cases h
        · exact h
      have hlen : window.length = nv.length := by
        have := congrArg List.length hwindow
        simp only [List.length_cons, List.length_append, List.length_nil] at this
        omega
      have hlarge : value (window ++ [top]) < 2 ^ 32 * value nv := by
        rw [← hwindow, value_cons]
        have := x.toNat_lt
        omega
      have hround : roundDividend (2 ^ 32) (value (low ++ [x] ++ rest)) (value nv) k = value (window ++ [top]) := by
        rw [← hwindow, List.append_assoc, List.singleton_append, value_append, hlow, value_cons]
        exact roundDividend_top (hlow ▸ value_lt low) x.toNat_lt hlt
      have hq : value (window ++ [top]) / value nv < 2 ^ 32 := by
        rwa [Nat.div_lt_iff_lt_mul hpos]
      have hestimate := estimate_eq outside low high hnv htop hlen hlarge
      have hsmall : value (low ++ [x] ++ rest) / value nv < (2 ^ 32) ^ (k + 1) := by
        have hlow' := value_append_lt (low ++ [x]) rest
        rw [List.length_append, hlow, List.length_singleton] at hlow'
        rw [Nat.div_lt_iff_lt_mul hpos]
        exact hlow'.trans_le (Nat.mul_le_mul_left _ hlt)
      have hnu : low ++ [x] ++ rest ++ high = low ++ window ++ top :: high := by
        rw [List.append_assoc low, List.singleton_append, hwindow]
        simp
      have hn : value (low ++ [x] ++ rest) = value low + (2 ^ 32) ^ k * value (window ++ [top]) := by
        rw [List.append_assoc, List.singleton_append, hwindow, value_append low, hlow]
      by_cases hexact : trialQuotient (2 ^ 32) nv.length (value (window ++ [top])) (value nv) =
          value (window ++ [top]) / value nv
      · obtain ⟨window', hlen', hrem, hdivide⟩ := divideRound_spec hpos hlen hq (hestimate.trans hexact)
        obtain ⟨digits, nu, hloop, hih⟩ := @ih _ _ (0 :: high)
          (UInt32.ofNat (value (window ++ [top]) / value nv) :: q) hlow hlen' (hrem ▸ Nat.mod_lt _ hpos)
        -- Taking the digit's multiple out leaves what the rest of the loop divides.
        have htotal : value (low ++ [x] ++ rest) =
            value (low ++ window') + value nv * ((2 ^ 32) ^ k * (value (window ++ [top]) / value nv)) := by
          rw [hn, value_append low window', hrem, hlow]
          nth_rewrite 1 [← Nat.div_add_mod (value (window ++ [top])) (value nv)]
          ring
        refine ⟨digits ++ [UInt32.ofNat (value (window ++ [top]) / value nv)], nu, ?_,
          hih.concat hpos hq hround hexact htotal hsmall⟩
        rw [divideLoop, hnu, ← hlow, hdivide, hlow, List.append_assoc digits]
        exact hloop
      · rw [hnu]
        exact divideLoop_inexact hnv htop hpos hlow hlen hlarge hn hround hsmall hexact

/-! ## The whole division -/

/-- A multiple of the power below the top limb bounds the top limb. -/
theorem le_top {l : MagArray} {x : UInt32} {k : Nat} (h : k * (2 ^ 32) ^ l.length ≤ value (l ++ [x])) :
    k ≤ x.toNat := by
  have hl := value_append_lt l [x]
  rw [value_cons, value_nil, Nat.mul_zero, Nat.add_zero, Nat.mul_comm] at hl
  exact Nat.le_of_lt_succ (Nat.lt_of_mul_lt_mul_right (h.trans_lt hl))

/-- What a top limb below another one decides. -/
theorem value_lt_of_top_lt {l l' : MagArray} {x y : UInt32} (hlen : l.length = l'.length) (h : x.toNat < y.toNat) :
    value (l ++ [x]) < value (l' ++ [y]) := by
  have hl := value_append_lt l [x]
  rw [value_cons, value_nil, Nat.mul_zero, Nat.add_zero, hlen] at hl
  calc value (l ++ [x]) < (2 ^ 32) ^ l'.length * (x.toNat + 1) := hl
    _ ≤ (2 ^ 32) ^ l'.length * y.toNat := Nat.mul_le_mul_left _ h
    _ ≤ value (l' ++ [y]) := by
      rw [value_concat]
      exact Nat.le_add_left _ _

/-- The shifted divisor has the highest bit set. -/
theorem shifted_divisor {v : MagArray} {x : UInt32} (hx : x ≠ 0) :
    ∃ nv y, shiftLeft (v ++ [x]) (UInt32.ofNat (numberOfLeadingZerosU32 x)) = nv ++ [y] ∧ nv.length = v.length ∧
      2 ^ 31 ≤ y.toNat ∧ value (nv ++ [y]) = value (v ++ [x]) * 2 ^ numberOfLeadingZerosU32 x := by
  obtain ⟨hs, hlow, hhigh⟩ := numberOfLeadingZerosU32_spec hx
  have hshift : (UInt32.ofNat (numberOfLeadingZerosU32 x)).toNat = numberOfLeadingZerosU32 x := by
    rw [UInt32.toNat_ofNat', Nat.mod_eq_of_lt (by omega)]
  obtain ⟨hlen, hv⟩ := shiftLeft_spec (hshift ▸ hs) (v ++ [x])
  have hlast : (v ++ [x]).getLastD 0 = x := by simp
  rw [hlast, hshift, Nat.div_eq_of_lt hhigh, Nat.mul_zero, Nat.add_zero] at hv
  obtain h | ⟨nv, y, h⟩ := eq_nil_or_concat (shiftLeft (v ++ [x]) (UInt32.ofNat (numberOfLeadingZerosU32 x)))
  · rw [h] at hlen
    simp at hlen
  · rw [h] at hlen hv
    have hlen' : nv.length = v.length := by simpa using hlen
    refine ⟨nv, y, h, hlen', le_top (l := nv) ?_, hv⟩
    rw [hv, value_concat, hlen']
    have hmul := Nat.mul_le_mul_left ((2 ^ 32) ^ v.length) hlow
    rw [Nat.add_mul, Nat.mul_assoc]
    rw [Nat.mul_comm] at hmul
    exact hmul.trans (Nat.le_add_left _ _)

/-- The shifted dividend, with the limb the highest bits go to. -/
theorem shifted_dividend {s : Nat} (hs : s < 32) (u : MagArray) :
    ∃ (c : UInt32) (high : MagArray),
      (if UInt32.ofNat (numberOfLeadingZerosU32 (u.getLastD 0)) ≥ UInt32.ofNat s then shiftLeft u (UInt32.ofNat s) ++ [0]
        else shiftLeft u (UInt32.ofNat s) ++ [u.getLastD 0 >>> (32 - UInt32.ofNat s), 0]) =
        shiftLeft u (UInt32.ofNat s) ++ c :: high ∧
      c.toNat < 2 ^ 31 ∧ (shiftLeft u (UInt32.ofNat s)).length = u.length ∧
      value (shiftLeft u (UInt32.ofNat s) ++ [c]) = value u * 2 ^ s := by
  have hshift : (UInt32.ofNat s).toNat = s := by rw [UInt32.toNat_ofNat', Nat.mod_eq_of_lt (by omega)]
  obtain ⟨hlen, hv⟩ := shiftLeft_spec (hshift ▸ hs) u
  rw [hshift] at hv
  have htop := (u.getLastD 0).toNat_lt
  have hcond : UInt32.ofNat (numberOfLeadingZerosU32 (u.getLastD 0)) ≥ UInt32.ofNat s ↔
      s ≤ numberOfLeadingZerosU32 (u.getLastD 0) := by
    have hle := numberOfLeadingZerosU32_le (u.getLastD 0)
    rw [ge_iff_le, UInt32.le_iff_toNat_le, hshift, UInt32.toNat_ofNat', Nat.mod_eq_of_lt (by omega)]
  by_cases h : s ≤ numberOfLeadingZerosU32 (u.getLastD 0)
  · -- Nothing leaves the top limb.
    have hzero : (u.getLastD 0).toNat * 2 ^ s / 2 ^ 32 = 0 := by
      by_cases h0 : u.getLastD 0 = 0
      · rw [h0, UInt32.toNat_zero, Nat.zero_mul, Nat.zero_div]
      · have hlt := (numberOfLeadingZerosU32_spec h0).2.2
        have hle := Nat.mul_le_mul_left (u.getLastD 0).toNat (Nat.pow_le_pow_right (by decide : 0 < 2) h)
        exact Nat.div_eq_of_lt (hle.trans_lt hlt)
    rw [hzero, Nat.mul_zero, Nat.add_zero] at hv
    refine ⟨0, [], if_pos (hcond.mpr h), by decide, hlen, ?_⟩
    rw [value_concat, hv, UInt32.toNat_zero, Nat.mul_zero, Nat.add_zero]
  · have hpos : 0 < s := by omega
    have hover := toNat_overflow (n := UInt32.ofNat s) (by rwa [hshift]) (by rwa [hshift]) (u.getLastD 0)
    rw [hshift] at hover
    rw [hover, ← hlen] at hv
    refine ⟨u.getLastD 0 >>> (32 - UInt32.ofNat s), [0], if_neg (mt hcond.mp h), ?_, hlen, ?_⟩
    · rw [← hover, Nat.div_lt_iff_lt_mul (by decide)]
      have hle : 2 ^ s ≤ 2 ^ 31 := Nat.pow_le_pow_right (by decide) (by omega)
      calc (u.getLastD 0).toNat * 2 ^ s < 2 ^ 32 * 2 ^ s := Nat.mul_lt_mul_of_pos_right htop (Nat.two_pow_pos s)
        _ ≤ 2 ^ 32 * 2 ^ 31 := Nat.mul_le_mul_left _ hle
        _ = 2 ^ 31 * 2 ^ 32 := Nat.mul_comm _ _
    · rw [value_concat, hv]

/-- In no round of Algorithm D is the estimate above the digit. -/
def EstimatesExact (u v : MagArray) : Prop :=
  TrialsExact (2 ^ 32) v.length (u.length - v.length + 1) (value u * 2 ^ numberOfLeadingZerosU32 (v.getLastD 0))
    (value v * 2 ^ numberOfLeadingZerosU32 (v.getLastD 0))

instance (u v : MagArray) : Decidable (EstimatesExact u v) := inferInstanceAs (Decidable (TrialsExact _ _ _ _ _))

/-- The run of the loop that Algorithm D is: the operands shifted until the
highest bit of the divisor is at the top of its limb, and the remainder shifted
back. -/
theorem divideMagnitude_run (outside : Outside) {u v : MagArray} (hv : Normalized v) (hlen : 2 ≤ v.length)
    (hle : v.length ≤ u.length) :
    ∃ nv nu, nv.length = v.length ∧ 2 ^ 31 ≤ (nv.getLastD 0).toNat ∧
      value nv = value v * 2 ^ numberOfLeadingZerosU32 (v.getLastD 0) ∧
      LongDivision nv (u.length - v.length + 1) (value u * 2 ^ numberOfLeadingZerosU32 (v.getLastD 0))
        (divideMagnitude outside u v).1 nu ∧
      (divideMagnitude outside u v).2 =
        shiftRight (nu.take v.length) (UInt32.ofNat (numberOfLeadingZerosU32 (v.getLastD 0))) ∧
      numberOfLeadingZerosU32 (v.getLastD 0) < 32 := by
  obtain rfl | ⟨v, x, rfl⟩ := eq_nil_or_concat v
  · simp at hlen
  have hx := normalized_concat.mp hv
  obtain ⟨hs, -, -⟩ := numberOfLeadingZerosU32_spec hx
  obtain ⟨nv, y, hnv, hnvlen, hy, hnvval⟩ := shifted_divisor (v := v) hx
  obtain ⟨c, high, hnu, hc, hulen, huval⟩ := shifted_dividend hs u
  have hlast : (v ++ [x]).getLastD 0 = x := by simp
  have hlength : (nv ++ [y]).length = (v ++ [x]).length := by simp [hnvlen]
  have hvlen : (v ++ [x]).length = v.length + 1 := by simp
  generalize hsu : shiftLeft u (UInt32.ofNat (numberOfLeadingZerosU32 x)) = su at hnu hulen huval
  -- The first window: the top limbs of the dividend, and the limb above them.
  obtain ⟨low, rest, hsplit, hlow, hrest⟩ : ∃ low rest, su = low ++ rest ∧ low.length = u.length - v.length ∧
      rest.length = nv.length := by
    refine ⟨su.take (u.length - v.length), su.drop (u.length - v.length), (List.take_append_drop _ _).symm, ?_, ?_⟩
    · rw [List.length_take]
      omega
    · rw [List.length_drop]
      omega
  have hpos : 0 < value (nv ++ [y]) := by
    refine value_pos_of_concat fun h => ?_
    rw [h] at hy
    cases hy
  have htop : 2 ^ 31 ≤ ((nv ++ [y]).getLastD 0).toNat := by simpa using hy
  obtain ⟨digits, nu, hrun, hdivision⟩ := @divideLoop_spec outside (nv ++ [y]) (hlength ▸ hlen)
    htop hpos low.length low (rest ++ [c]) high [] rfl (by rw [List.length_append, List.length_append, hrest]; rfl) (value_lt_of_top_lt hrest (by omega))
  rw [← List.append_assoc, ← hsplit, huval] at hdivision
  have hrounds : u.length - (v ++ [x]).length + 1 = low.length := by omega
  have hstart : low ++ (rest ++ [c]) ++ high = su ++ c :: high := by
    rw [hsplit]
    simp
  have hresult : divideMagnitude outside u (v ++ [x]) =
      (digits, shiftRight (nu.take (v ++ [x]).length) (UInt32.ofNat (numberOfLeadingZerosU32 x))) := by
    unfold divideMagnitude
    simp only [hlast, hnv, hsu, hnu, hrounds, ← hstart, hrun, List.append_nil]
  rw [hlast, hresult, hrounds]
  exact ⟨nv ++ [y], nu, hlength, htop, hnvval, hdivision, rfl, hs⟩

/-- **Algorithm D** by two limbs or more. Its quotient is not too small, and
is right exactly when the estimates are, as then is the remainder. -/
theorem divideMagnitude_spec (outside : Outside) {u v : MagArray} (hv : Normalized v) (hlen : 2 ≤ v.length)
    (hle : v.length ≤ u.length) :
    value u / value v ≤ value (divideMagnitude outside u v).1 ∧
      (EstimatesExact u v → value (divideMagnitude outside u v).1 = value u / value v ∧
        value (divideMagnitude outside u v).2 = value u % value v) ∧
      (value (divideMagnitude outside u v).1 = value u / value v → EstimatesExact u v) := by
  obtain ⟨nv, nu, hlength, -, hnv, hdivision, hrem, hs⟩ := divideMagnitude_run outside hv hlen hle
  rw [EstimatesExact, hrem]
  generalize numberOfLeadingZerosU32 (v.getLastD 0) = s at *
  have hpowpos : 0 < 2 ^ s := Nat.two_pow_pos s
  have hshift : (UInt32.ofNat s).toNat = s := by
    rw [UInt32.toNat_ofNat', Nat.mod_eq_of_lt (by omega)]
  have hquotient : value u * 2 ^ s / value nv = value u / value v := by
    rw [hnv, Nat.mul_div_mul_right _ _ hpowpos]
  rw [← hlength, ← hnv]
  refine ⟨hquotient ▸ hdivision.le, fun h => ?_, fun h => hlength ▸ hdivision.trials (h.trans hquotient.symm)⟩
  obtain ⟨hdigits, rem, high, hnu, hremlen, hmod⟩ := hdivision.exact (hlength ▸ h)
  refine ⟨hdigits.trans hquotient, ?_⟩
  rw [hnu, ← hremlen, List.take_left, value_shiftRight (by rwa [hshift]), hshift, hmod, hnv,
    Nat.mul_mod_mul_right, Nat.mul_div_cancel _ hpowpos]

/-- A quotient of less than `j` limbs, and not within `2 ^ 65` of the next power
for four of them, is not given more limbs. -/
theorem divideMagnitude_lt (outside : Outside) {u v : MagArray} (hv : Normalized v) (hlen : 2 ≤ v.length)
    (hle : v.length ≤ u.length) {j : Nat} (hj : 2 ^ 63 * value u ≤ (2 ^ 63 - 1) * ((2 ^ 32) ^ j * value v)) :
    value (divideMagnitude outside u v).1 < (2 ^ 32) ^ j := by
  obtain ⟨nv, nu, hlength, htop, hnv, hdivision, -, -⟩ := divideMagnitude_run outside hv hlen hle
  generalize numberOfLeadingZerosU32 (v.getLastD 0) = s at *
  have hpowpos : 0 < 2 ^ s := Nat.two_pow_pos s
  have hBpos : 0 < (2 ^ 32) ^ j := Nat.pow_pos (by decide)
  obtain ⟨l, v₀, v₁, rfl, hl⟩ := exists_two_top (hlength.symm ▸ hlen)
  have hv₁ : 2 ^ 31 ≤ v₁.toNat := by simpa using htop
  -- The two leading limbs are more than `2 ^ 63`.
  have hlead : 2 ^ 63 * (2 ^ 32) ^ ((l ++ [v₀, v₁]).length - 2) ≤ value (l ++ [v₀, v₁]) := by
    rw [← hl, value_append, value_cons, value_cons, value_nil, Nat.mul_comm]
    exact (Nat.mul_le_mul_left _ (by omega)).trans (Nat.le_add_left _ _)
  have hbelow : 2 ^ 63 * (value u * 2 ^ s / (2 ^ 32) ^ j) ≤ (2 ^ 63 - 1) * value (l ++ [v₀, v₁]) := by
    have hfloor := Nat.mul_div_le (value u * 2 ^ s) ((2 ^ 32) ^ j)
    refine Nat.le_of_mul_le_mul_left ?_ hBpos
    calc (2 ^ 32) ^ j * (2 ^ 63 * (value u * 2 ^ s / (2 ^ 32) ^ j))
        = 2 ^ 63 * ((2 ^ 32) ^ j * (value u * 2 ^ s / (2 ^ 32) ^ j)) := by ring
      _ ≤ 2 ^ 63 * (value u * 2 ^ s) := Nat.mul_le_mul_left _ hfloor
      _ = 2 ^ 63 * value u * 2 ^ s := by ring
      _ ≤ (2 ^ 63 - 1) * ((2 ^ 32) ^ j * value v) * 2 ^ s := Nat.mul_le_mul_right _ hj
      _ = (2 ^ 32) ^ j * ((2 ^ 63 - 1) * value (l ++ [v₀, v₁])) := by
        rw [hnv]
        ring
  have hpos : 0 < value (l ++ [v₀, v₁]) := by
    have := Nat.pow_pos (a := 2 ^ 32) (n := (l ++ [v₀, v₁]).length - 2) (by decide)
    omega
  have hfar : 0 < value (l ++ [v₀, v₁]) / (2 ^ 32) ^ ((l ++ [v₀, v₁]).length - 2) :=
    Nat.div_pos (by omega) (Nat.pow_pos (by decide))
  have habove := hdivision.above j fun i hi _ => trialQuotient_above hfar (by omega) hi
  have hvpos : 0 < value v := Nat.pos_of_mul_pos_right (hnv ▸ hpos)
  have hXpos : 0 < (2 ^ 32) ^ j * value v := Nat.mul_pos hBpos hvpos
  have hzero : value u * 2 ^ s / value (l ++ [v₀, v₁]) / (2 ^ 32) ^ j = 0 := by
    rw [hnv, Nat.mul_div_mul_right _ _ hpowpos, Nat.div_div_eq_div_mul, Nat.div_eq_zero_iff]
    refine .inr ?_
    rw [Nat.mul_comm]
    omega
  rw [hzero, Nat.div_eq_zero_iff] at habove
  exact habove.resolve_left hBpos.ne'

theorem estimatesExact_two {u v : MagArray} (hv : Normalized v) (hlen : v.length = 2) : EstimatesExact u v := by
  have hpos : 0 < value v := Nat.pos_of_ne_zero fun h0 => by
    rw [(value_eq_zero_iff hv).mp h0] at hlen
    cases hlen
  rw [EstimatesExact, hlen]
  exact trialsExact_two (by decide) (Nat.mul_pos hpos (Nat.two_pow_pos _)) _

/-! ## `Divide` -/

/-- What `Divide` assigns when both magnitudes are canonical, path by path. -/
inductive DividePath (outside : Outside) (b divisor : BigInteger) (resIsDivisor : Bool) : Division → Prop
  | equal (h : value b.mag = value divisor.mag) :
      DividePath outside b divisor resIsDivisor ⟨assignInt64 (Int64.ofInt (b.sign * divisor.sign)), assignInt64 0, false⟩
  | less (h : value b.mag < value divisor.mag) :
      DividePath outside b divisor resIsDivisor ⟨assignInt64 0, b, true⟩
  | unit (h : value divisor.mag < value b.mag) (hlen : divisor.getBitLength = 1) :
      DividePath outside b divisor resIsDivisor
        ⟨{ b with sign := b.sign * if resIsDivisor then b.sign else divisor.sign }, assignInt64 0, false⟩
  | short (h : value divisor.mag < value b.mag) (hbit : divisor.getBitLength ≠ 1) (hlen : b.mag.length ≤ 2) :
      DividePath outside b divisor resIsDivisor
        ⟨assignInt64 (Int64.ofInt (b.sign * divisor.sign * (lowUint64 b.mag / lowUint64 divisor.mag : Nat))),
          assignInt64 (Int64.ofInt (b.sign * divisor.sign * (lowUint64 b.mag % lowUint64 divisor.mag : Nat))), false⟩
  | long (h : value divisor.mag < value b.mag) (hbit : divisor.getBitLength ≠ 1) (hlen : 2 < b.mag.length) :
      DividePath outside b divisor resIsDivisor
        ⟨normalize ⟨b.sign * divisor.sign, (divideMagnitude outside b.mag divisor.mag).1⟩,
          normalize ⟨b.sign * divisor.sign, (divideMagnitude outside b.mag divisor.mag).2⟩, false⟩

theorem divide_path (outside : Outside) {b divisor : BigInteger} (resIsDivisor : Bool) (h : Normalized b.mag)
    (h' : Normalized divisor.mag) (hne : divisor.mag ≠ []) :
    ∃ d, divide outside b divisor resIsDivisor = .ok d ∧ DividePath outside b divisor resIsDivisor d := by
  have hcompare := compare_ignoreSign h h'
  unfold divide
  rw [if_neg hne]
  simp only [hcompare, ordering]
  by_cases heq : value b.mag = value divisor.mag
  · rw [if_pos heq, if_pos rfl]
    exact ⟨_, rfl, .equal heq⟩
  · rw [if_neg heq]
    by_cases hlt : value divisor.mag < value b.mag
    · rw [if_pos hlt, if_neg (by decide), if_neg (by decide)]
      split
      · next hbit => exact ⟨_, rfl, .unit hlt hbit⟩
      · next hbit =>
        split
        · next hlen => exact ⟨_, rfl, .short hlt hbit hlen⟩
        · next hlen => exact ⟨_, rfl, .long hlt hbit (by omega)⟩
    · rw [if_neg hlt, if_neg (by decide), if_pos rfl]
      exact ⟨_, rfl, .less (by omega)⟩

/-- The two limbs of a short magnitude are all of it. -/
theorem lowUint64_eq {l : MagArray} (h : l.length ≤ 2) : lowUint64 l = value l := by
  obtain _ | ⟨x, _ | ⟨y, _ | ⟨z, l⟩⟩⟩ := l
  · rfl
  · simp [lowUint64]
  · simp [lowUint64, Nat.mul_comm]
  · simp at h

theorem getBitLength_two_limbs {b : BigInteger} (h : b.mag.length = 2) : b.getBitLength ≠ 1 := by
  obtain ⟨x, y, hmag⟩ := List.length_eq_two.mp h
  have hlt : bitLengthU32 y ≤ 32 := Nat.sub_le _ _
  intro h1
  have := congrArg UInt32.toNat h1
  simp only [getBitLength, hmag, List.getLast?_cons_cons, List.getLast?_singleton, List.length_cons,
    List.length_nil, UInt32.toNat_ofNat'] at this
  change _ = 1 at this
  omega

theorem toInt_assignInt64_mul {s : Int} (hs : s = 1 ∨ s = -1) {n : Nat} (hn : n < 2 ^ 63) :
    (assignInt64 (Int64.ofInt (s * n))).toInt = s * n := by
  rw [toInt_assignInt64]
  apply Int64.toInt_ofInt_of_le <;> rcases hs with rfl | rfl <;> omega

/-- A signed quotient or remainder that fits keeps its magnitude. -/
theorem assignInt64_mul {s : Int} (hs : s = 1 ∨ s = -1) {n : Nat} (hn : n < 2 ^ 63) :
    value (assignInt64 (Int64.ofInt (s * n))).mag = n ∧ (s = 1 → (assignInt64 (Int64.ofInt (s * n))).sign = 1) := by
  have hv := toInt_assignInt64_mul hs hn
  constructor
  · rw [toInt] at hv
    rcases (canonical_assignInt64 (Int64.ofInt (s * n))).sign with h | h <;> rw [h] at hv <;>
      rcases hs with rfl | rfl <;> omega
  · rintro rfl
    exact (canonical_assignInt64 _).sign_of_nonneg (by rw [hv]; omega)

/-- Quotient and remainder of two limbs fit. -/
theorem quotient_fits {u v : Nat} (hu : u < 2 ^ 64) (hv : 2 ≤ v) (hlt : v < u) : u / v < 2 ^ 63 ∧ u % v < 2 ^ 63 := by
  constructor
  · rw [Nat.div_lt_iff_lt_mul (by omega)]
    omega
  · have hmod := Nat.mod_lt u (by omega : v > 0)
    have hdm := Nat.mod_add_div u v
    have hq : 1 ≤ u / v := Nat.div_pos hlt.le (by omega)
    have := Nat.mul_le_mul_left v hq
    omega

/-- What a division gives, up to signs. -/
structure Divided (b divisor : BigInteger) (d : Division) : Prop where
  res : Normalized d.res.mag
  rem : Normalized d.rem.mag
  quotient : value d.res.mag = value b.mag / value divisor.mag
  remainder : value d.rem.mag = value b.mag % value divisor.mag
  signs : (d.res.sign = 1 ∨ d.res.sign = -1) ∧ (d.rem.sign = 1 ∨ d.rem.sign = -1)
  positive : b.sign = 1 → divisor.sign = 1 → d.res.sign = 1 ∧ d.rem.sign = 1

/-- Division by two limbs or more is right: it does not come to the main loop,
or no estimate is too large. `GetBitLength` is one for `±1`, and for bit lengths
that are one modulo `2 ^ 32`. -/
def DivideExact (b divisor : BigInteger) : Prop :=
  value b.mag ≤ value divisor.mag ∨ divisor.getBitLength ≠ 1 ∧ EstimatesExact b.mag divisor.mag

/-- **Division by two limbs or more.** The magnitudes of quotient and remainder
are the quotient and the remainder of the magnitudes. -/
theorem divide_limbs {outside : Outside} {b divisor : BigInteger} {resIsDivisor : Bool} {d : Division}
    (h : b.Normal) (h' : divisor.Normal) (hlen : 2 ≤ divisor.mag.length) (hexact : DivideExact b divisor)
    (hd : DividePath outside b divisor resIsDivisor d) : Divided b divisor d := by
  have hsign := h.sign_mul h'
  have hne : divisor.mag ≠ [] := fun hnil => by simp [hnil] at hlen
  have hlarge : 2 ^ 32 ≤ value divisor.mag := by
    refine le_trans ?_ (pow_length_le_value h'.normalized hne)
    calc 2 ^ 32 = (2 ^ 32) ^ 1 := (pow_one _).symm
      _ ≤ (2 ^ 32) ^ (divisor.mag.length - 1) := Nat.pow_le_pow_right (by decide) (by omega)
  have hpos : 0 < value divisor.mag := by omega
  cases hd with
  | equal heq =>
    obtain ⟨hone, hpositive⟩ := assignInt64_mul hsign (n := 1) (by decide)
    rw [Nat.cast_one, Int.mul_one] at hone hpositive
    refine ⟨(canonical_assignInt64 _).normalized, normalized_nil, ?_, ?_, ⟨(canonical_assignInt64 _).sign, .inl rfl⟩,
      fun hb hd => ⟨hpositive (by rw [hb, hd]; rfl), rfl⟩⟩
    · rw [hone, heq, Nat.div_self hpos]
    · rw [heq, Nat.mod_self]
      rfl
  | less hlt =>
    exact ⟨normalized_nil, h.normalized, (Nat.div_eq_of_lt hlt).symm, (Nat.mod_eq_of_lt hlt).symm,
      ⟨.inl rfl, h.sign⟩, fun hb _ => ⟨rfl, hb⟩⟩
  | unit hlt hbit =>
    rcases hexact with hle | ⟨hbit', -⟩
    · omega
    · exact absurd hbit hbit'
  | short hlt _ hshort =>
    have hfit : value b.mag < 2 ^ 64 := (value_lt b.mag).trans_le (Nat.pow_le_pow_right (by decide) hshort)
    obtain ⟨hquot, hrem⟩ := quotient_fits hfit (by omega) hlt
    rw [lowUint64_eq hshort, lowUint64_eq ((length_le_of_value_le h'.normalized hlt.le).trans hshort)]
    have hres := assignInt64_mul hsign hquot
    have hrem := assignInt64_mul hsign hrem
    exact ⟨(canonical_assignInt64 _).normalized, (canonical_assignInt64 _).normalized, hres.1, hrem.1,
      ⟨(canonical_assignInt64 _).sign, (canonical_assignInt64 _).sign⟩,
      fun hb hd => ⟨hres.2 (by rw [hb, hd]; rfl), hrem.2 (by rw [hb, hd]; rfl)⟩⟩
  | long hlt _ _ =>
    have hexact := hexact.resolve_left (by omega)
    obtain ⟨hq, hr⟩ := (divideMagnitude_spec outside h'.normalized hlen
      (length_le_of_value_le h'.normalized hlt.le)).2.1 hexact.2
    exact ⟨normalized_normalize _, normalized_normalize _, (value_normalize _).trans hq, (value_normalize _).trans hr,
      ⟨hsign, hsign⟩, fun hb hd => by simp [normalize, hb, hd]⟩

theorem divide_two_limbs {outside : Outside} {b divisor : BigInteger} {resIsDivisor : Bool} {d : Division}
    (h : b.Normal) (h' : divisor.Normal) (hlen : divisor.mag.length = 2)
    (hd : DividePath outside b divisor resIsDivisor d) : Divided b divisor d :=
  divide_limbs h h' hlen.ge (.inr ⟨getBitLength_two_limbs hlen, estimatesExact_two h'.normalized hlen⟩) hd

end BigInteger

end DocumentDbOdbc
