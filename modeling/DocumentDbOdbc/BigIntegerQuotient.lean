/-
`Divide` against the division of integers.

By two limbs and more the magnitudes of quotient and remainder are right
exactly when the main loop is (`divide_euclidean_iff`). By at most two limbs,
where the main loop does not run, the signs are right unless a negative divisor
leaves a remainder (`divide_signed_iff`). The results may be stored in any two
objects.
-/
import DocumentDbOdbc.BigIntegerRun

namespace DocumentDbOdbc

open Limbs

namespace BigInteger

/-! ## Where the results go -/

theorem Division.assign_some (d : Division) (s : Objects) {res rem : Nat} (h : res ≠ rem) :
    d.assign s res (some rem) res = d.res ∧ d.assign s res (some rem) rem = d.rem := by
  unfold Division.assign
  dsimp only
  split
  · rw [Function.update_self, Function.update_of_ne h.symm, Function.update_self]
    exact ⟨rfl, rfl⟩
  · rw [Function.update_of_ne h, Function.update_self, Function.update_self]
    exact ⟨rfl, rfl⟩

/-- A division into two objects. -/
theorem run_divide (outside : Outside) {s : Objects} {x divisor res rem : Nat} (hx : Normalized (s x).mag)
    (hd : Normalized (s divisor).mag) (hne : (s divisor).mag ≠ []) (h : res ≠ rem) :
    ∃ d, DividePath outside (s x) (s divisor) (res == divisor) d ∧
      (Operation.divide x divisor res (some rem)).run outside s res = d.res ∧
      (Operation.divide x divisor res (some rem)).run outside s rem = d.rem := by
  obtain ⟨d, hdivide, hpath⟩ := divide_path outside (res == divisor) hx hd hne
  refine ⟨d, hpath, ?_⟩
  simp only [Operation.run, hdivide]
  exact d.assign_some s h

/-! ## Magnitudes -/

/-- `n` divided by `d` is `q`, and `r` is left. -/
def Euclidean (n d q r : MagArray) : Prop := value n = value q * value d + value r ∧ value r < value d

instance (n d q r : MagArray) : Decidable (Euclidean n d q r) := inferInstanceAs (Decidable (_ ∧ _))

theorem euclidean_iff {n d q r : MagArray} (hd : 0 < value d) :
    Euclidean n d q r ↔ value q = value n / value d ∧ value r = value n % value d := by
  constructor
  · rintro ⟨he, hlt⟩
    rw [he, Nat.add_comm, Nat.add_mul_div_right _ _ hd, Nat.add_mul_mod_self_right, Nat.div_eq_of_lt hlt,
      Nat.mod_eq_of_lt hlt, Nat.zero_add]
    exact ⟨rfl, rfl⟩
  · rintro ⟨hq, hr⟩
    rw [Euclidean, hq, hr]
    exact ⟨(Nat.div_add_mod' _ _).symm, Nat.mod_lt _ hd⟩

/-- Path by path: the path for `±1` is wrong for any other divisor, and the
main loop when an estimate is. -/
theorem DividePath.quotient_iff {outside : Outside} {b divisor : BigInteger} {resIsDivisor : Bool} {d : Division}
    (h : b.Normal) (h' : divisor.Normal) (hlen : 2 ≤ divisor.mag.length)
    (hd : DividePath outside b divisor resIsDivisor d) :
    value d.res.mag = value b.mag / value divisor.mag ↔ DivideExact b divisor := by
  refine ⟨fun hq => ?_, fun hexact => (divide_limbs h h' hlen hexact hd).quotient⟩
  have hne : divisor.mag ≠ [] := fun hnil => by simp [hnil] at hlen
  have hlow := pow_length_le_value h'.normalized hne
  have hlarge : (2 ^ 32) ^ 1 ≤ value divisor.mag := (Nat.pow_le_pow_right (by decide) (by omega)).trans hlow
  cases hd with
  | equal heq => exact .inl heq.le
  | less hlt => exact .inl hlt.le
  | unit hlt _ =>
    have hless : value b.mag / value divisor.mag < value b.mag := Nat.div_lt_self (by omega) (by omega)
    exact absurd hq.symm hless.ne
  | short hlt hbit hshort =>
    have hle := length_le_of_value_le h'.normalized hlt.le
    exact .inr ⟨hbit, estimatesExact_two h'.normalized (by omega)⟩
  | long hlt hbit hlong =>
    have hle := length_le_of_value_le h'.normalized hlt.le
    exact .inr ⟨hbit, (divideMagnitude_spec outside h'.normalized hlen hle).2.2 ((value_normalize _).symm.trans hq)⟩

theorem DividePath.euclidean_iff {outside : Outside} {b divisor : BigInteger} {resIsDivisor : Bool} {d : Division}
    (h : b.Normal) (h' : divisor.Normal) (hlen : 2 ≤ divisor.mag.length)
    (hd : DividePath outside b divisor resIsDivisor d) :
    Euclidean b.mag divisor.mag d.res.mag d.rem.mag ↔ DivideExact b divisor := by
  have hne : divisor.mag ≠ [] := fun hnil => by simp [hnil] at hlen
  have hpos : 0 < value divisor.mag := h'.normalized.value_pos hne
  rw [BigInteger.euclidean_iff hpos, hd.quotient_iff h h' hlen]
  exact ⟨And.left, fun hexact => ⟨hexact, (divide_limbs h h' hlen hexact hd).remainder⟩⟩

/-- **Division by two limbs and more**, into any two objects, gives quotient
and remainder of the magnitudes exactly when it is exact. -/
theorem divide_euclidean_iff (outside : Outside) {s : Objects} {x divisor res rem : Nat} (hx : (s x).Normal)
    (hd : (s divisor).Normal) (hlen : 2 ≤ (s divisor).mag.length) (h : res ≠ rem) :
    Euclidean (s x).mag (s divisor).mag ((Operation.divide x divisor res (some rem)).run outside s res).mag
        ((Operation.divide x divisor res (some rem)).run outside s rem).mag ↔
      DivideExact (s x) (s divisor) := by
  have hne : (s divisor).mag ≠ [] := fun hnil => by simp [hnil] at hlen
  obtain ⟨d, hpath, hres, hrem⟩ := run_divide outside hx.normalized hd.normalized hne h
  rw [hres, hrem]
  exact hpath.euclidean_iff hx hd hlen

/-- `2 ^ 96 + 5` divided by `2 ^ 32 + 1`, the quotient stored in the dividend. -/
theorem divide_euclidean_iff_aliased :
    let s : Objects := fun x => if x = 0 then ⟨1, [5, 0, 0, 1]⟩ else ⟨1, [1, 1]⟩
    Euclidean (s 0).mag (s 1).mag ((Operation.divide 0 1 0 (some 2)).run .zeros s 0).mag
      ((Operation.divide 0 1 0 (some 2)).run .zeros s 2).mag := by
  intro s
  have hx : (s 0).Normal := ⟨.inl rfl, by decide⟩
  have hd : (s 1).Normal := ⟨.inl rfl, by decide⟩
  have hlen : (s 1).mag.length = 2 := rfl
  exact (divide_euclidean_iff .zeros hx hd hlen.ge (by decide)).mpr
    (.inr ⟨getBitLength_two_limbs hlen, estimatesExact_two hd.normalized hlen⟩)

/-- **An estimate that is too large**: `2 * 10 ^ 28 - 1` divided by `10 ^ 28`
gives `2`. -/
theorem divide_not_euclidean :
    let s : Objects := fun x => if x = 0 then ⟨1, [0x1FFFFFFF, 0x7C4A04C2, 0x409F9CBC]⟩ else
      ⟨1, [0x10000000, 0x3E250261, 0x204FCE5E]⟩
    (s 0).toInt = 2 * 10 ^ 28 - 1 ∧ (s 1).toInt = 10 ^ 28 ∧
      ((Operation.divide 0 1 2 (some 3)).run .zeros s 2).toInt = 2 ∧
      ¬ Euclidean (s 0).mag (s 1).mag ((Operation.divide 0 1 2 (some 3)).run .zeros s 2).mag
        ((Operation.divide 0 1 2 (some 3)).run .zeros s 3).mag := by
  decide

/-! ## Signs -/

/-- The path for a bit length of one is that for `±1`, up to two limbs. -/
theorem value_eq_one_iff {b : BigInteger} (h : Normalized b.mag) (hlen : b.mag.length ≤ 2) :
    b.getBitLength = 1 ↔ value b.mag = 1 :=
  getBitLength_eq_one_iff h (lt_of_le_of_lt (size_le_length b.mag) (by omega))

/-- A quotient has the product of the signs. -/
theorem DividePath.toInt_res {outside : Outside} {b divisor : BigInteger} {d : Division} (h : b.Normal)
    (h' : divisor.Normal) (hne : divisor.mag ≠ []) (hd : DividePath outside b divisor false d) :
    d.res.toInt = b.sign * divisor.sign * value d.res.mag := by
  have hsign := h.sign_mul h'
  have hpos : 0 < value divisor.mag := h'.normalized.value_pos hne
  cases hd with
  | equal heq =>
    have hone := (assignInt64_mul hsign (n := 1) (by decide)).1
    have htoInt := toInt_assignInt64_mul hsign (n := 1) (by decide)
    rw [Nat.cast_one, Int.mul_one] at hone htoInt
    rw [hone, htoInt, Nat.cast_one, Int.mul_one]
  | less hlt => exact (Int.mul_zero _).symm
  | unit hlt hbit => rfl
  | short hlt hbit hshort =>
    have hle := (length_le_of_value_le h'.normalized hlt.le).trans hshort
    have hone := mt (value_eq_one_iff h'.normalized hle).mpr hbit
    have hfit : value b.mag < 2 ^ 64 := (value_lt b.mag).trans_le (Nat.pow_le_pow_right (by decide) hshort)
    have hquot := (quotient_fits hfit (by omega) hlt).1
    rw [lowUint64_eq hshort, lowUint64_eq hle, (assignInt64_mul hsign hquot).1]
    exact toInt_assignInt64_mul hsign hquot
  | long _ _ _ => rfl

/-- A quotient is canonical where Algorithm D has two limbs to divide by. -/
theorem DividePath.canonical_res {outside : Outside} {b divisor : BigInteger} {resIsDivisor : Bool} {d : Division}
    (h : b.Normal) (h' : divisor.Normal) (hne : divisor.mag ≠ [])
    (hlen : b.mag.length ≤ 2 ∨ 2 ≤ divisor.mag.length) (hd : DividePath outside b divisor resIsDivisor d) :
    d.res.Canonical := by
  have hpos : 0 < value divisor.mag := h'.normalized.value_pos hne
  cases hd with
  | equal _ => exact canonical_assignInt64 _
  | less _ => exact canonical_zero
  | unit hlt _ =>
    refine ⟨?_, h.normalized, fun hnil => ?_⟩
    · split
      · rcases h.sign with hs | hs <;> simp [hs]
      · exact h.sign_mul h'
    · have hzero := (value_eq_zero_iff h.normalized).mpr hnil
      omega
  | short _ _ _ => exact canonical_assignInt64 _
  | long hlt _ hlong =>
    refine canonical_normalize (h.sign_mul h') fun h0 => ?_
    have hle := (divideMagnitude_spec outside h'.normalized (hlen.resolve_left (by omega))
      (length_le_of_value_le h'.normalized hlt.le)).1
    have hq := Nat.div_pos hlt.le hpos
    omega

/-- A dividend of at most two limbs is divided right. -/
theorem DividePath.quotient_short {outside : Outside} {b divisor : BigInteger} {resIsDivisor : Bool} {d : Division}
    (h : b.Normal) (h' : divisor.Normal) (hlen : b.mag.length ≤ 2) (hne : divisor.mag ≠ [])
    (hd : DividePath outside b divisor resIsDivisor d) : value d.res.mag = value b.mag / value divisor.mag := by
  have hsign := h.sign_mul h'
  have hpos : 0 < value divisor.mag := h'.normalized.value_pos hne
  cases hd with
  | equal heq =>
    have hone := (assignInt64_mul hsign (n := 1) (by decide)).1
    rw [Nat.cast_one, Int.mul_one] at hone
    rw [hone, heq, Nat.div_self hpos]
  | less hlt => exact (Nat.div_eq_of_lt hlt).symm
  | unit hlt hbit =>
    have hle := (length_le_of_value_le h'.normalized hlt.le).trans hlen
    rw [(value_eq_one_iff h'.normalized hle).mp hbit, Nat.div_one]
  | short hlt hbit hshort =>
    have hle := (length_le_of_value_le h'.normalized hlt.le).trans hshort
    have hone := mt (value_eq_one_iff h'.normalized hle).mpr hbit
    have hfit : value b.mag < 2 ^ 64 := (value_lt b.mag).trans_le (Nat.pow_le_pow_right (by decide) hshort)
    rw [lowUint64_eq hshort, lowUint64_eq hle]
    exact (assignInt64_mul hsign (quotient_fits hfit (by omega) hlt).1).1
  | long _ _ hlong => omega

/-- A quotient is not too small where Algorithm D has two limbs to divide by. -/
theorem DividePath.le_quotient {outside : Outside} {b divisor : BigInteger} {resIsDivisor : Bool} {d : Division}
    (h : b.Normal) (h' : divisor.Normal) (hne : divisor.mag ≠ [])
    (hlen : b.mag.length ≤ 2 ∨ 2 ≤ divisor.mag.length) (hd : DividePath outside b divisor resIsDivisor d) :
    value b.mag / value divisor.mag ≤ value d.res.mag := by
  by_cases hshort : b.mag.length ≤ 2
  · exact (hd.quotient_short h h' hshort hne).ge
  · have hpos : 0 < value divisor.mag := h'.normalized.value_pos hne
    cases hd with
    | equal heq =>
      have hone := (assignInt64_mul (h.sign_mul h') (n := 1) (by decide)).1
      rw [Nat.cast_one, Int.mul_one] at hone
      rw [hone, heq, Nat.div_self hpos]
    | less hlt => exact (Nat.div_eq_of_lt hlt).le
    | unit _ _ => exact Nat.div_le_self _ _
    | short _ _ hle => exact absurd hle hshort
    | long hlt _ _ =>
      exact (divideMagnitude_spec outside h'.normalized (hlen.resolve_left hshort)
        (length_le_of_value_le h'.normalized hlt.le)).1.trans (value_normalize ⟨_, _⟩).ge

/-- The numbers up to two limbs: the remainder has the sign of the dividend
where it is the dividend, and otherwise the product of the signs. -/
theorem DividePath.toInt {outside : Outside} {b divisor : BigInteger} {d : Division} (h : b.Normal) (h' : divisor.Normal)
    (hlen : b.mag.length ≤ 2) (hlen' : divisor.mag.length ≤ 2) (hne : divisor.mag ≠ [])
    (hd : DividePath outside b divisor false d) :
    d.res.toInt = b.sign * divisor.sign * (value b.mag / value divisor.mag : Nat) ∧
      d.rem.toInt = (if value b.mag < value divisor.mag then b.sign else b.sign * divisor.sign) *
        (value b.mag % value divisor.mag : Nat) := by
  have hpos : 0 < value divisor.mag := h'.normalized.value_pos hne
  refine ⟨by rw [hd.toInt_res h h' hne, hd.quotient_short h h' hlen hne], ?_⟩
  cases hd with
  | equal heq =>
    rw [heq, Nat.mod_self, Nat.cast_zero, Int.mul_zero]
    rfl
  | less hlt =>
    rw [if_pos hlt, Nat.mod_eq_of_lt hlt]
    rfl
  | unit hlt hbit =>
    rw [(value_eq_one_iff h'.normalized hlen').mp hbit, Nat.mod_one, Nat.cast_zero, Int.mul_zero]
    rfl
  | short hlt hbit _ =>
    have hone := mt (value_eq_one_iff h'.normalized hlen').mpr hbit
    have hfit : value b.mag < 2 ^ 64 := (value_lt b.mag).trans_le (Nat.pow_le_pow_right (by decide) hlen)
    rw [if_neg (by omega), lowUint64_eq hlen, lowUint64_eq hlen']
    exact toInt_assignInt64_mul (h.sign_mul h') (quotient_fits hfit (by omega) hlt).2
  | long _ _ hlong => omega

/-- Truncated division: the quotient is rounded toward zero, and the remainder
has the sign of the dividend. -/
def Truncated (n d q r : Int) : Prop := n = q * d + r ∧ q = n.tdiv d ∧ (r = 0 ∨ r.sign = n.sign)

instance (n d q r : Int) : Decidable (Truncated n d q r) := inferInstanceAs (Decidable (_ ∧ _ ∧ _))

/-- With the product of the signs for a sign, a remainder is right when there
is none or the divisor is positive. -/
theorem truncated_iff {s t : Int} (hs : s = 1 ∨ s = -1) (ht : t = 1 ∨ t = -1) {u v : Nat} (hv : 0 < v) :
    Truncated (s * u) (t * v) (s * t * (u / v : Nat)) ((if u < v then s else s * t) * (u % v : Nat)) ↔
      0 < t * v ∨ u < v ∨ t * v ∣ s * u := by
  have hdm : (u : Int) = (u / v : Nat) * v + (u % v : Nat) := by exact_mod_cast (Nat.div_add_mod' u v).symm
  have hquot : s * t * (u / v : Nat) = (s * (u : Int)).tdiv (t * v) := by
    rcases hs with rfl | rfl <;> rcases ht with rfl | rfl <;>
      simp [Int.neg_tdiv, Int.tdiv_neg]
  have hdvd : t * (v : Int) ∣ s * u ↔ v ∣ u := by
    rcases hs with rfl | rfl <;> rcases ht with rfl | rfl <;> simp [Int.natCast_dvd_natCast]
  have hsigned : ∀ r : Nat, r ≤ u → s * (r : Int) = 0 ∨ (s * (r : Int)).sign = (s * (u : Int)).sign := by
    intro r hr
    rcases Nat.eq_zero_or_pos r with rfl | hr0
    · exact .inl (Int.mul_zero s)
    · rw [Int.sign_mul, Int.sign_mul, Int.sign_eq_one_of_pos (by omega : (0 : Int) < r),
        Int.sign_eq_one_of_pos (by omega : (0 : Int) < u)]
      exact .inr rfl
  rw [hdvd]
  by_cases hlt : u < v
  · rw [if_pos hlt, Nat.div_eq_of_lt hlt, Nat.mod_eq_of_lt hlt]
    rw [Nat.div_eq_of_lt hlt] at hquot
    exact ⟨fun _ => .inr (.inl hlt), fun _ => ⟨by simp, hquot, hsigned u (Nat.le_refl u)⟩⟩
  · rw [if_neg hlt]
    rcases ht with rfl | rfl
    · refine ⟨fun _ => .inl (by omega), fun _ => ⟨?_, hquot, ?_⟩⟩
      · rw [Int.mul_one, Int.one_mul, Int.mul_assoc, ← Int.mul_add, ← hdm]
      · rw [Int.mul_one]
        exact hsigned _ (Nat.mod_le u v)
    · constructor
      · rintro ⟨he, -, -⟩
        have hzero : ((u % v : Nat) : Int) = 0 := by rcases hs with rfl | rfl <;> linarith
        exact .inr (.inr (Nat.dvd_of_mod_eq_zero (Int.natCast_eq_zero.mp hzero)))
      · rintro (hneg | hlt' | hdvd)
        · omega
        · exact absurd hlt' hlt
        · rw [Nat.mod_eq_zero_of_dvd hdvd] at hdm ⊢
          refine ⟨?_, hquot, .inl (Int.mul_zero _)⟩
          rw [hdm]
          push_cast
          ring

/-- **Division up to two limbs**, into any two objects but the divisor, is
truncated division exactly when the divisor is positive, larger than the
dividend or divides it. -/
theorem divide_signed_iff (outside : Outside) {s : Objects} {x divisor res rem : Nat} (hx : (s x).Normal)
    (hd : (s divisor).Normal) (hlen : (s x).mag.length ≤ 2) (hlen' : (s divisor).mag.length ≤ 2)
    (hne : (s divisor).toInt ≠ 0) (h : res ≠ rem) (hres : res ≠ divisor) :
    Truncated (s x).toInt (s divisor).toInt ((Operation.divide x divisor res (some rem)).run outside s res).toInt
        ((Operation.divide x divisor res (some rem)).run outside s rem).toInt ↔
      0 < (s divisor).toInt ∨ (s x).toInt.natAbs < (s divisor).toInt.natAbs ∨ (s divisor).toInt ∣ (s x).toInt := by
  have hnil : (s divisor).mag ≠ [] := fun hnil => hne (by rw [BigInteger.toInt, hnil]; exact Int.mul_zero _)
  have hpos : 0 < value (s divisor).mag := hd.normalized.value_pos hnil
  obtain ⟨d, hpath, hrunres, hrunrem⟩ := run_divide outside hx.normalized hd.normalized hnil h
  rw [beq_false_of_ne hres] at hpath
  obtain ⟨hq, hr⟩ := hpath.toInt hx hd hlen hlen' hnil
  rw [hrunres, hrunrem, hq, hr, hx.natAbs_toInt, hd.natAbs_toInt]
  exact truncated_iff hx.sign hd.sign hpos

/-- `-7` divided by `2`. -/
theorem divide_signed_iff_negative :
    let s : Objects := fun x => if x = 0 then assignInt64 (-7) else assignInt64 2
    Truncated (s 0).toInt (s 1).toInt ((Operation.divide 0 1 0 (some 2)).run .zeros s 0).toInt
      ((Operation.divide 0 1 0 (some 2)).run .zeros s 2).toInt := by
  intro s
  have hx : (s 0).Normal := (canonical_assignInt64 (-7)).normal
  have hd : (s 1).Normal := (canonical_assignInt64 2).normal
  exact (divide_signed_iff .zeros hx hd (by decide) (by decide) (by decide) (by decide) (by decide)).mpr
    (.inl (by decide))

/-- **A negative divisor**: `7` divided by `-2` is `-3`, and `-1` is left. -/
theorem divide_not_truncated :
    let s : Objects := fun x => if x = 0 then assignInt64 7 else assignInt64 (-2)
    ((Operation.divide 0 1 2 (some 3)).run .zeros s 2).toInt = -3 ∧
      ((Operation.divide 0 1 2 (some 3)).run .zeros s 3).toInt = -1 ∧
      ¬ Truncated (s 0).toInt (s 1).toInt ((Operation.divide 0 1 2 (some 3)).run .zeros s 2).toInt
        ((Operation.divide 0 1 2 (some 3)).run .zeros s 3).toInt := by
  decide

end BigInteger

end DocumentDbOdbc
