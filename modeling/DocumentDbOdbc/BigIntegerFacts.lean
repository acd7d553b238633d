/-
`common::BigInteger` against the integers: the number each operation makes,
and what it keeps of the canonical form.

A sign and limbs denote `toInt`. They are canonical when the top limb is not
zero and zero has the sign 1; then `Compare` decides equality of the numbers
(`compare_eq_zero_iff`).
-/
import DocumentDbOdbc.BigInteger

namespace DocumentDbOdbc

open Limbs

namespace BigInteger

/-- The number. -/
def toInt (b : BigInteger) : Int := b.sign * value b.mag

/-- The canonical form of a number. -/
structure Canonical (b : BigInteger) : Prop where
  sign : b.sign = 1 ∨ b.sign = -1
  normalized : Normalized b.mag
  zero : b.mag = [] → b.sign = 1

instance (b : BigInteger) : Decidable b.Canonical :=
  decidable_of_iff ((b.sign = 1 ∨ b.sign = -1) ∧ Normalized b.mag ∧ (b.mag = [] → b.sign = 1))
    ⟨fun h => ⟨h.1, h.2.1, h.2.2⟩, fun h => ⟨h.sign, h.normalized, h.zero⟩⟩

/-- The form of every number: a zero may be negative, see `negative_zero`. -/
structure Normal (b : BigInteger) : Prop where
  sign : b.sign = 1 ∨ b.sign = -1
  normalized : Normalized b.mag

theorem Canonical.normal {b : BigInteger} (h : b.Canonical) : b.Normal := ⟨h.sign, h.normalized⟩

theorem Normal.sign_mul {b other : BigInteger} (h : b.Normal) (h' : other.Normal) :
    b.sign * other.sign = 1 ∨ b.sign * other.sign = -1 := by
  rcases h.sign with hs | hs <;> rcases h'.sign with hs' | hs' <;> simp [hs, hs']

theorem Normal.natAbs_toInt {b : BigInteger} (h : b.Normal) : b.toInt.natAbs = value b.mag := by
  rw [toInt]
  rcases h.sign with hs | hs <;> rw [hs] <;> simp

/-- A positive sign is right for any normalized magnitude. -/
theorem Canonical.ofPos {mag : MagArray} (h : Normalized mag) : Canonical ⟨1, mag⟩ :=
  ⟨.inl rfl, h, fun _ => rfl⟩

theorem canonical_zero : Canonical zero := .ofPos normalized_nil

theorem normalized_normalize (b : BigInteger) : Normalized b.normalize.mag := normalized_trim b.mag

@[simp] theorem value_normalize (b : BigInteger) : value b.normalize.mag = value b.mag := value_trim b.mag

theorem canonical_normalize {s : Int} {mag : MagArray} (hs : s = 1 ∨ s = -1) (h : value mag = 0 → s = 1) :
    Canonical (normalize ⟨s, mag⟩) := by
  refine ⟨hs, normalized_normalize _, fun hnil => h ?_⟩
  rw [← value_normalize ⟨s, mag⟩]
  exact (value_eq_zero_iff (normalized_normalize _)).mpr hnil

theorem isZero_iff {b : BigInteger} : b.isZero = true ↔ b.mag = [] := by
  simp [isZero]

theorem canonical_negate {b : BigInteger} (h : b.Canonical) : b.negate.Canonical := by
  unfold negate
  split
  · next hz =>
    refine ⟨by rcases h.sign with hs | hs <;> simp [hs], h.normalized, fun hnil => ?_⟩
    rw [isZero_iff (b := b).mpr hnil] at hz
    cases hz
  · exact h

/-! ## Construction -/

theorem highWord_toNat (x : UInt64) : (x >>> 32).toUInt32.toNat = x.toNat / 2 ^ 32 := by
  have hx := x.toNat_lt
  rw [UInt64.toNat_toUInt32, UInt64.toNat_shiftRight, Nat.shiftRight_eq_div_pow]
  exact Nat.mod_eq_of_lt (by simp; omega)

/-- The three values of `AssignUint64`. -/
theorem assignUint64_cases (x : UInt64) :
    x = 0 ∧ assignUint64 x = zero ∨
      (0 < x.toNat ∧ x.toNat < 2 ^ 32 ∧ assignUint64 x = ⟨1, [x.toUInt32]⟩) ∨
      (2 ^ 32 ≤ x.toNat ∧ assignUint64 x = ⟨1, [x.toUInt32, (x >>> 32).toUInt32]⟩) := by
  have hhigh := highWord_toNat x
  by_cases h0 : x = 0
  · exact .inl ⟨h0, by rw [assignUint64, if_pos h0]; rfl⟩
  · have hpos : 0 < x.toNat := by
      rw [Nat.pos_iff_ne_zero]
      exact fun h => h0 (UInt64.toNat_inj.mp h)
    by_cases h : (x >>> 32).toUInt32 = 0
    · refine .inr (.inl ⟨hpos, ?_, by simp [assignUint64, h0, h]⟩)
      rw [h, UInt32.toNat_zero] at hhigh
      omega
    · refine .inr (.inr ⟨?_, by simp [assignUint64, h0, h]⟩)
      have hne : x.toNat / 2 ^ 32 ≠ 0 := fun hz => h (UInt32.toNat_inj.mp (hhigh.trans hz))
      omega

@[simp] theorem sign_assignUint64 (x : UInt64) : (assignUint64 x).sign = 1 := by
  obtain ⟨-, he⟩ | ⟨-, -, he⟩ | ⟨-, he⟩ := assignUint64_cases x <;> rw [he]
  rfl

@[simp] theorem value_assignUint64 (x : UInt64) : value (assignUint64 x).mag = x.toNat := by
  obtain ⟨rfl, he⟩ | ⟨-, hlt, he⟩ | ⟨-, he⟩ := assignUint64_cases x <;> rw [he]
  · rfl
  · simp only [value_cons, value_nil, UInt64.toNat_toUInt32]
    omega
  · rw [value_cons, value_cons, value_nil, highWord_toNat, UInt64.toNat_toUInt32]
    omega

theorem canonical_assignUint64 (x : UInt64) : (assignUint64 x).Canonical := by
  obtain ⟨rfl, he⟩ | ⟨hpos, hlt, he⟩ | ⟨hle, he⟩ := assignUint64_cases x <;> rw [he]
  · exact canonical_zero
  · refine .ofPos (normalized_of_le ?_)
    simp only [value_cons, value_nil, UInt64.toNat_toUInt32, List.length_singleton]
    omega
  · refine .ofPos (normalized_of_le ?_)
    rw [value_cons, value_cons, value_nil, highWord_toNat, UInt64.toNat_toUInt32]
    simp only [List.length_cons, List.length_nil]
    omega

@[simp] theorem assignInt64_zero : assignInt64 0 = zero := by decide

/-- The magnitude of a negative value, the least one included. -/
theorem toNat_neg_toUInt64 {x : Int64} (h : x < 0) : ((-x).toUInt64.toNat : Int) = -x.toInt := by
  have hx := Int64.lt_iff_toInt_lt.mp h
  have hneg : (-x).toUInt64.toNat = (2 ^ 64 - x.toBitVec.toNat) % 2 ^ 64 := rfl
  rw [← Int64.toInt_toBitVec] at hx ⊢
  have hlt := x.toBitVec.isLt
  rw [BitVec.toInt_eq_toNat_cond] at hx ⊢
  simp only [Int64.toInt_zero] at hx
  rw [hneg]
  split at hx <;> omega

theorem canonical_assignInt64 (x : Int64) : (assignInt64 x).Canonical := by
  unfold assignInt64
  split
  · next h =>
    refine ⟨.inr rfl, (canonical_assignUint64 _).normalized, fun hnil => ?_⟩
    have hv := value_assignUint64 (-x).toUInt64
    have hx := Int64.lt_iff_toInt_lt.mp h
    have hneg := toNat_neg_toUInt64 h
    rw [show (assignUint64 (-x).toUInt64).mag = [] from hnil, value_nil] at hv
    simp only [Int64.toInt_zero] at hx
    omega
  · exact canonical_assignUint64 _

theorem toInt_assignInt64 (x : Int64) : (assignInt64 x).toInt = x.toInt := by
  unfold assignInt64 toInt
  split
  · next h =>
    rw [value_assignUint64, toNat_neg_toUInt64 h]
    exact Int.neg_mul_neg 1 x.toInt ▸ Int.one_mul _
  · next h =>
    rw [sign_assignUint64, value_assignUint64, Int64.toNat_toUInt64_of_le (Int64.not_lt.mp h)]
    have := Int64.le_iff_toInt_le.mp (Int64.not_lt.mp h)
    simp only [Int64.toInt_zero] at this
    rw [← Int64.toNat_toInt]
    omega

/-! ## Comparison -/

/-- Which of two numbers is larger, as `Compare` tells it. -/
def ordering (mgt : Int) (m n : Nat) : Int := if m = n then 0 else if n < m then mgt else -mgt

theorem compareFromTop_eq (mgt : Int) : ∀ {l l' : MagArray}, l.length = l'.length →
    compareFromTop mgt l.reverse l'.reverse = ordering mgt (value l) (value l') := by
  intro l
  induction l using List.reverseRecOn with
  | nil =>
    intro l' hlen
    rw [List.length_eq_zero_iff.mp hlen.symm]
    rfl
  | append_singleton l x ih =>
    intro l' hlen
    obtain rfl | ⟨l', y, rfl⟩ := eq_nil_or_concat l'
    · simp at hlen
    · have hlen' : l.length = l'.length := by simpa using hlen
      have hl := value_lt l
      have hl' := value_lt l'
      simp only [List.reverse_append, List.reverse_cons, List.reverse_nil, List.nil_append, List.singleton_append,
        compareFromTop, value_concat]
      rw [hlen'] at hl ⊢
      by_cases hxy : x = y
      · subst hxy
        rw [if_pos rfl, ih hlen']
        simp only [ordering, Nat.add_right_cancel_iff, Nat.add_lt_add_iff_right]
      · have hne : x.toNat ≠ y.toNat := fun h => hxy (UInt32.toNat_inj.mp h)
        rw [if_neg hxy]
        generalize (2 ^ 32) ^ l'.length = B at *
        -- The higher top limb outweighs all limbs below it.
        rcases Nat.lt_or_gt_of_ne hne with hlt | hlt
        · have : B * x.toNat + B ≤ B * y.toNat := by nlinarith
          rw [if_neg (by rw [UInt32.lt_iff_toNat_lt]; omega), ordering, if_neg (by omega), if_neg (by omega)]
        · have : B * y.toNat + B ≤ B * x.toNat := by nlinarith
          rw [if_pos (by rw [UInt32.lt_iff_toNat_lt]; omega), ordering, if_neg (by omega), if_pos (by omega)]

/-- Normalized magnitudes compare as their numbers. -/
theorem compareMagnitude {l l' : MagArray} (h : Normalized l) (h' : Normalized l') (mgt : Int) :
    (if l.length ≠ l'.length then (if l.length > l'.length then mgt else -mgt)
      else compareFromTop mgt l.reverse l'.reverse) = ordering mgt (value l) (value l') := by
  split
  · next hlen =>
    unfold ordering
    split
    · next hgt =>
      have hlt : value l' < value l := Nat.lt_of_not_le fun hle => by
        have := length_le_of_value_le h hle
        omega
      rw [if_neg (by omega), if_pos hlt]
    · next hgt =>
      have hlt : value l < value l' := Nat.lt_of_not_le fun hle => by
        have := length_le_of_value_le h' hle
        omega
      rw [if_neg (by omega), if_neg (by omega)]
  · next hlen => exact compareFromTop_eq mgt (not_not.mp hlen)

theorem compare_ignoreSign {b other : BigInteger} (h : Normalized b.mag) (h' : Normalized other.mag) :
    b.compare other true = ordering 1 (value b.mag) (value other.mag) := compareMagnitude h h' 1

/-- **Comparison is the order of the numbers.** -/
theorem compare_eq {b other : BigInteger} (h : b.Canonical) (h' : other.Canonical) :
    b.compare other false = if b.toInt = other.toInt then 0 else if other.toInt < b.toInt then 1 else -1 := by
  have hb : value b.mag = 0 → b.sign = 1 := fun h0 => h.zero ((value_eq_zero_iff h.normalized).mp h0)
  have ho : value other.mag = 0 → other.sign = 1 := fun h0 => h'.zero ((value_eq_zero_iff h'.normalized).mp h0)
  unfold compare
  by_cases hs : b.sign = other.sign
  · have hcond : (!false && b.sign != other.sign) = false := by simp [hs]
    rw [hcond, if_neg Bool.false_ne_true]
    simp only [Bool.false_eq_true, if_false]
    rw [compareMagnitude h.normalized h'.normalized]
    unfold ordering toInt
    rw [← hs]
    rcases h.sign with hsign | hsign <;> rw [hsign] <;> grind
  · have hcond : (!false && b.sign != other.sign) = true := by simp [hs]
    rw [hcond, if_pos rfl]
    -- One of the signs is negative, and its magnitude is then not empty.
    unfold toInt
    rcases h.sign with hb' | hb' <;> rcases h'.sign with ho' | ho' <;> rw [hb', ho'] at hs ⊢
    · exact absurd rfl hs
    · rw [if_pos (by decide), if_neg (by omega), if_pos (by omega)]
    · rw [if_neg (by decide), if_neg (by omega), if_neg (by omega)]
    · exact absurd rfl hs

/-- **Equality is equality of the numbers.** -/
theorem compare_eq_zero_iff {b other : BigInteger} (h : b.Canonical) (h' : other.Canonical) :
    b.compare other false = 0 ↔ b.toInt = other.toInt := by
  rw [compare_eq h h']
  split
  · next he => exact ⟨fun _ => he, fun _ => rfl⟩
  · next he =>
    refine ⟨fun h0 => ?_, fun he' => absurd he' he⟩
    split at h0 <;> cases h0

/-- A number has one canonical form. -/
theorem Canonical.ext {b other : BigInteger} (h : b.Canonical) (h' : other.Canonical) (he : b.toInt = other.toInt) :
    b = other := by
  have habs : value b.mag = value other.mag := by
    unfold toInt at he
    rcases h.sign with hs | hs <;> rcases h'.sign with hs' | hs' <;> rw [hs, hs'] at he <;> omega
  have hmag := value_inj h.normalized h'.normalized habs
  have hsign : b.sign = other.sign := by
    by_cases h0 : value b.mag = 0
    · rw [h.zero ((value_eq_zero_iff h.normalized).mp h0),
        h'.zero ((value_eq_zero_iff h'.normalized).mp (habs ▸ h0))]
    · rw [toInt, toInt, habs] at he
      exact Int.eq_of_mul_eq_mul_right (by omega) he
  obtain ⟨sign, mag⟩ := b
  obtain ⟨sign', mag'⟩ := other
  dsimp only at hsign hmag
  rw [hsign, hmag]

/-! ## Addition -/

theorem ofNat_add_div (n : Nat) : (UInt32.ofNat n).toNat + 2 ^ 32 * (n / 2 ^ 32) = n := by
  rw [UInt32.toNat_ofNat']
  exact Nat.mod_add_div n (2 ^ 32)

theorem addArray_spec : ∀ {res addend : MagArray} {carry : Nat}, res.length = addend.length → carry ≤ 1 →
    (addArray carry res addend).1.length = res.length ∧ (addArray carry res addend).2 ≤ 1 ∧
      value (addArray carry res addend).1 + (2 ^ 32) ^ res.length * (addArray carry res addend).2 =
        value res + value addend + carry := by
  intro res
  induction res with
  | nil =>
    intro addend carry hlen hc
    rw [List.length_eq_zero_iff.mp hlen.symm]
    exact ⟨rfl, hc, by simp [addArray]⟩
  | cons r res ih =>
    intro addend carry hlen hc
    obtain _ | ⟨a, addend⟩ := addend
    · simp at hlen
    · have hr := r.toNat_lt
      have ha := a.toNat_lt
      obtain ⟨hlen', hc', hv⟩ := @ih addend ((r.toNat + a.toNat + carry) / 2 ^ 32)
        (by simpa using hlen) (by omega)
      have hsum := ofNat_add_div (r.toNat + a.toNat + carry)
      refine ⟨congrArg Nat.succ hlen', hc', ?_⟩
      simp only [addArray, value_cons, pow_length_cons]
      generalize (2 ^ 32) ^ res.length = B at hv ⊢
      linarith

theorem addCarry_spec : ∀ {res : MagArray} {carry : Nat}, carry ≤ 1 →
    (addCarry carry res).1.length = res.length ∧ (addCarry carry res).2 ≤ 1 ∧
      value (addCarry carry res).1 + (2 ^ 32) ^ res.length * (addCarry carry res).2 = value res + carry := by
  intro res
  induction res with
  | nil =>
    intro carry hc
    exact ⟨rfl, hc, by simp [addCarry]⟩
  | cons r res ih =>
    intro carry hc
    by_cases h0 : carry = 0
    · simp [addCarry, h0]
    · have hr := r.toNat_lt
      obtain ⟨hlen, hc', hv⟩ := @ih ((r.toNat + carry) / 2 ^ 32) (by omega)
      have hsum := ofNat_add_div (r.toNat + carry)
      simp only [addCarry, if_neg h0]
      refine ⟨congrArg Nat.succ hlen, hc', ?_⟩
      simp only [value_cons, pow_length_cons]
      generalize (2 ^ 32) ^ res.length = B at hv ⊢
      linarith

/-- The sum of two magnitudes has the limbs of the longer one in use. -/
theorem normalized_of_sum {l l₁ l₂ : MagArray} (h₁ : Normalized l₁) (h₂ : Normalized l₂)
    (hlen : l.length = max l₁.length l₂.length) (hv : value l₁ + value l₂ ≤ value l) : Normalized l := by
  by_cases hnil : l = []
  · rw [hnil]
    exact normalized_nil
  · have hpos : l.length ≠ 0 := fun h => hnil (List.length_eq_zero_iff.mp h)
    refine normalized_of_le ?_
    rcases Nat.le_total l₁.length l₂.length with hle | hle
    · rw [Nat.max_eq_right hle] at hlen
      have := pow_length_le_value h₂ (fun h => hpos (by rw [hlen, h]; rfl))
      rw [hlen]
      omega
    · rw [Nat.max_eq_left hle] at hlen
      have := pow_length_le_value h₁ (fun h => hpos (by rw [hlen, h]; rfl))
      rw [hlen]
      omega

/-- The magnitudes are added, and no zero limb comes to the top. -/
theorem addMagnitude_spec {b : BigInteger} {addend : MagArray} (hb : Normalized b.mag) (ha : Normalized addend) :
    (b.addMagnitude addend).sign = b.sign ∧ Normalized (b.addMagnitude addend).mag ∧
      value (b.addMagnitude addend).mag = value b.mag + value addend := by
  obtain ⟨mag, hmag⟩ : ∃ mag, mag = b.mag ++ List.replicate (addend.length - b.mag.length) 0 := ⟨_, rfl⟩
  have hmaglen : mag.length = max b.mag.length addend.length := by
    rw [hmag, List.length_append, List.length_replicate]
    omega
  have hmagval : value mag = value b.mag := by rw [hmag, value_append, value_replicate_zero, Nat.mul_zero, Nat.add_zero]
  have htake : (mag.take addend.length).length = addend.length := by
    rw [List.length_take]
    omega
  have hsplit := value_append (mag.take addend.length) (mag.drop addend.length)
  rw [List.take_append_drop, htake] at hsplit
  obtain ⟨hlow, hc, hsum⟩ := addArray_spec htake (Nat.zero_le 1)
  rw [htake] at hlow hsum
  unfold addMagnitude
  simp only [← hmag]
  generalize addArray 0 (mag.take addend.length) addend = low at *
  split
  · next h0 =>
    have hv : value (low.1 ++ mag.drop addend.length) = value b.mag + value addend := by
      rw [value_append, hlow]
      rw [h0] at hsum
      omega
    refine ⟨rfl, normalized_of_sum hb ha ?_ hv.ge, hv⟩
    rw [List.length_append, List.length_drop]
    omega
  · next h0 =>
    obtain ⟨hhigh, hc', hcarry⟩ := @addCarry_spec (mag.drop addend.length) _ hc
    generalize addCarry low.2 (mag.drop addend.length) = high at *
    have hlen : (low.1 ++ high.1).length = max b.mag.length addend.length := by
      rw [List.length_append, hlow, hhigh, List.length_drop]
      omega
    have hpow : (2 ^ 32) ^ addend.length * (2 ^ 32) ^ (mag.drop addend.length).length =
        (2 ^ 32) ^ (low.1 ++ high.1).length := by
      rw [← Nat.pow_add, List.length_append, hlow, hhigh]
    have hv : value (low.1 ++ high.1) + (2 ^ 32) ^ (low.1 ++ high.1).length * high.2 =
        value b.mag + value addend := by
      rw [← hpow, value_append, hlow]
      generalize (2 ^ 32) ^ addend.length = B at hsum hsplit ⊢
      generalize (2 ^ 32) ^ (mag.drop addend.length).length = C at hcarry ⊢
      calc value low.1 + B * value high.1 + B * C * high.2
          = value low.1 + B * (value high.1 + C * high.2) := by ring
        _ = (value low.1 + B * low.2) + B * value (mag.drop addend.length) := by rw [hcarry]; ring
        _ = value b.mag + value addend := by rw [hsum, ← hmagval, hsplit]; ring
    dsimp only
    split
    · next h1 =>
      rw [h1, Nat.mul_zero, Nat.add_zero] at hv
      rw [List.append_nil]
      exact ⟨rfl, normalized_of_sum hb ha hlen hv.ge, hv⟩
    · next h1 =>
      have h1 : high.2 = 1 := by omega
      rw [h1] at hv ⊢
      have hone : (UInt32.ofNat 1) ≠ 0 := by decide
      refine ⟨rfl, normalized_concat.mpr hone, ?_⟩
      rw [value_concat]
      exact hv

/-- `Add` adds to the magnitude, whatever the sign. -/
theorem add_spec {b : BigInteger} (h : b.Canonical) (x : UInt64) :
    (b.add x).Canonical ∧ (b.add x).sign = b.sign ∧ value (b.add x).mag = value b.mag + x.toNat := by
  unfold add
  split
  · next hx => exact ⟨h, rfl, by simp [hx]⟩
  · next hx =>
    split
    · next hz =>
      have hnil := isZero_iff.mp hz
      refine ⟨canonical_assignUint64 x, ?_, ?_⟩
      · rw [sign_assignUint64, h.zero hnil]
      · rw [value_assignUint64, hnil, value_nil, Nat.zero_add]
    · next hz =>
      have haddend : (if (x >>> 32).toUInt32 ≠ 0 then [x.toUInt32, (x >>> 32).toUInt32] else [x.toUInt32]) =
          (assignUint64 x).mag := by
        simp only [assignUint64, if_neg hx, ne_eq, ite_not]
        split <;> rfl
      obtain ⟨hs, hn, hv⟩ := addMagnitude_spec h.normalized (canonical_assignUint64 x).normalized
      simp only [haddend]
      rw [value_assignUint64] at hv
      refine ⟨⟨hs ▸ h.sign, hn, fun hnil => ?_⟩, hs, hv⟩
      rw [hnil, value_nil] at hv
      exact absurd (isZero_iff.mpr ((value_eq_zero_iff h.normalized).mp (by omega))) hz

theorem Normal.canonical_of_ne {b : BigInteger} (h : b.Normal) (hne : b.mag ≠ []) : b.Canonical :=
  ⟨h.sign, h.normalized, fun hnil => absurd hnil hne⟩

/-- A word other than zero leaves a canonical number, of the sign it was added to; zero becomes positive. -/
theorem Normal.add_spec {b : BigInteger} (h : b.Normal) {x : UInt64} (hx : x ≠ 0) :
    (b.add x).Canonical ∧ (b.add x).sign = (if b.mag = [] then 1 else b.sign) ∧
      value (b.add x).mag = value b.mag + x.toNat := by
  by_cases hnil : b.mag = []
  · have hadd : b.add x = assignUint64 x := by
      rw [add, if_neg hx, if_pos (isZero_iff.mpr hnil)]
    rw [hadd, if_pos hnil, hnil, value_nil, Nat.zero_add]
    exact ⟨canonical_assignUint64 x, sign_assignUint64 x, value_assignUint64 x⟩
  · rw [if_neg hnil]
    exact BigInteger.add_spec (h.canonical_of_ne hnil) x

theorem Normal.toInt_nonneg_iff {b : BigInteger} (h : b.Normal) : 0 ≤ b.toInt ↔ b.mag = [] ∨ b.sign = 1 := by
  by_cases hnil : b.mag = []
  · simp [toInt, hnil]
  · have hpos : 0 < value b.mag := h.normalized.value_pos hnil
    rcases h.sign with hs | hs
    · simp [toInt, hs]
    · simp only [toInt, hs, hnil, false_or]
      omega

/-- `Add` adds to the magnitude: the sum is right for the numbers that are not negative. -/
theorem add_exact_iff {b : BigInteger} (h : b.Normal) (x : UInt64) :
    ((b.add x).Canonical ∧ (b.add x).toInt = b.toInt + x.toNat) ↔ if x = 0 then b.Canonical else 0 ≤ b.toInt := by
  by_cases hx : x = 0
  · subst hx
    have hadd : b.add 0 = b := if_pos rfl
    simp [hadd]
  · obtain ⟨hcanonical, hsign, hvalue⟩ := h.add_spec hx
    have hpos : 0 < x.toNat := Nat.pos_of_ne_zero fun hz => hx (UInt64.toNat_inj.mp hz)
    rw [if_neg hx, h.toInt_nonneg_iff, and_iff_right hcanonical, toInt, hsign, hvalue, toInt]
    by_cases hnil : b.mag = []
    · simp [hnil]
    · rw [if_neg hnil]
      simp only [hnil, false_or]
      rcases h.sign with hs | hs
      · simp [hs]
      · rw [hs]
        omega

theorem add_exact_iff_negative :
    ¬ (((⟨-1, [1]⟩ : BigInteger).add 1).Canonical ∧
      ((⟨-1, [1]⟩ : BigInteger).add 1).toInt = (⟨-1, [1]⟩ : BigInteger).toInt + (1 : UInt64).toNat) :=
  fun hexact => absurd ((add_exact_iff ⟨.inr rfl, by decide⟩ 1).mp hexact) (by decide)

theorem add_not_exact : (⟨-1, [1]⟩ : BigInteger).Canonical ∧ ((⟨-1, [1]⟩ : BigInteger).add 1).toInt = -2 ∧
    ((⟨-1, [1]⟩ : BigInteger).add 1).toInt ≠ (⟨-1, [1]⟩ : BigInteger).toInt + (1 : UInt64).toNat := by decide

example : (⟨1, [4294967295, 4294967295, 7]⟩ : BigInteger).add 1 = ⟨1, [0, 0, 8]⟩ ∧
    (⟨1, [4294967295, 4294967295]⟩ : BigInteger).add 4294967297 = ⟨1, [0, 1, 1]⟩ := by decide

/-! ## Multiplication -/

/-- A row adds a multiple of the magnitude, shifted to the row's place. -/
theorem multiplyRow_spec (x : UInt32) (rest : MagArray) : ∀ {mag acc : MagArray} {carry : Nat},
    acc.length = mag.length → carry < 2 ^ 32 →
    ∃ row, row.length = mag.length + 1 ∧ multiplyRow x carry mag (acc ++ 0 :: rest) = row ++ rest ∧
      value row = value acc + value mag * x.toNat + carry := by
  intro mag
  induction mag with
  | nil =>
    intro acc carry hlen hc
    rw [List.length_eq_zero_iff.mp hlen]
    refine ⟨[UInt32.ofNat carry], rfl, rfl, ?_⟩
    rw [value_cons, value_nil, UInt32.toNat_ofNat', Nat.mod_eq_of_lt hc]
    simp
  | cons m mag ih =>
    intro acc carry hlen hc
    obtain _ | ⟨r, acc⟩ := acc
    · simp at hlen
    · have hm := m.toNat_lt
      have hx := x.toNat_lt
      have hr := r.toNat_lt
      have hproduct : m.toNat * x.toNat + r.toNat + carry < 2 ^ 32 * 2 ^ 32 := by nlinarith
      obtain ⟨row, hrow, heq, hv⟩ := @ih acc ((m.toNat * x.toNat + r.toNat + carry) / 2 ^ 32)
        (by simpa using hlen) (Nat.div_lt_of_lt_mul hproduct)
      have hdiv := ofNat_add_div (m.toNat * x.toNat + r.toNat + carry)
      refine ⟨UInt32.ofNat (m.toNat * x.toNat + r.toNat + carry) :: row, congrArg Nat.succ hrow, ?_, ?_⟩
      · rw [List.cons_append, multiplyRow, heq, List.cons_append]
      · rw [value_cons, value_cons, value_cons, hv]
        linarith

/-- The rows add up to the product. -/
theorem multiplyRows_spec (mag : MagArray) : ∀ {other acc : MagArray}, acc.length = mag.length →
    value (multiplyRows mag other (acc ++ List.replicate other.length 0)) =
      value acc + value mag * value other := by
  intro other
  induction other with
  | nil =>
    intro acc _
    simp [multiplyRows]
  | cons x other ih =>
    intro acc hlen
    obtain ⟨row, hrow, heq, hv⟩ := multiplyRow_spec x (List.replicate other.length 0) hlen (Nat.two_pow_pos 32)
    obtain _ | ⟨r, row⟩ := row
    · simp at hrow
    · rw [List.length_cons, List.replicate_succ, multiplyRows, heq, List.cons_append]
      simp only [value_cons] at hv ⊢
      rw [ih (Nat.succ.inj hrow)]
      linarith

theorem value_multiply (b other : BigInteger) : value (b.multiply other).mag = value b.mag * value other.mag := by
  have h := @multiplyRows_spec b.mag other.mag (List.replicate b.mag.length 0) (by simp)
  rw [← List.replicate_add, value_replicate_zero, Nat.zero_add] at h
  rw [multiply, value_normalize, h]

theorem toInt_multiply (b other : BigInteger) : (b.multiply other).toInt = b.toInt * other.toInt := by
  rw [toInt, toInt, toInt, value_multiply]
  show b.sign * other.sign * _ = _
  push_cast
  ring

/-- The product is canonical unless it is a zero with a negative sign. -/
theorem canonical_multiply {b other : BigInteger} (h : b.Canonical) (h' : other.Canonical)
    (hz : b.mag = [] ∨ other.mag = [] → b.sign = other.sign) : (b.multiply other).Canonical := by
  have hv := value_multiply b other
  rw [multiply, value_normalize] at hv
  refine canonical_normalize ?_ fun h0 => ?_
  · rcases h.sign with hs | hs <;> rcases h'.sign with hs' | hs' <;> simp [hs, hs']
  · rw [hv, Nat.mul_eq_zero, value_eq_zero_iff h.normalized, value_eq_zero_iff h'.normalized] at h0
    rw [hz h0]
    rcases h'.sign with hs' | hs' <;> simp [hs']

theorem Normal.multiply {b other : BigInteger} (h : b.Normal) (h' : other.Normal) : (b.multiply other).Normal :=
  ⟨h.sign_mul h', normalized_normalize _⟩

theorem multiply_ne_nil {b other : BigInteger} (h : b.mag ≠ []) (hn : Normalized b.mag) (h' : other.mag ≠ [])
    (hn' : Normalized other.mag) : (b.multiply other).mag ≠ [] := by
  intro hnil
  have hv := value_multiply b other
  rw [hnil, value_nil, eq_comm, Nat.mul_eq_zero, value_eq_zero_iff hn, value_eq_zero_iff hn'] at hv
  exact hv.elim h h'

/-! ## Powers -/

/-- A canonical number other than zero. -/
def Nonzero (b : BigInteger) : Prop := b.Canonical ∧ b.mag ≠ []

theorem Nonzero.multiply {b other : BigInteger} (h : b.Nonzero) (h' : other.Nonzero) : (b.multiply other).Nonzero :=
  ⟨canonical_multiply h.1 h'.1 (fun hz => (hz.elim h.2 h'.2).elim),
    multiply_ne_nil h.2 h.1.normalized h'.2 h'.1.normalized⟩

/-- Squaring takes the exponent bit by bit. -/
theorem powLoop_spec : ∀ {fuel e : Nat} {b m : BigInteger}, e < 2 ^ fuel → b.Nonzero → m.Nonzero →
    (powLoop fuel e b m).Nonzero ∧ (powLoop fuel e b m).toInt = b.toInt * m.toInt ^ e := by
  intro fuel
  induction fuel with
  | zero =>
    intro e b m he hb hm
    rw [show e = 0 by simpa using he]
    exact ⟨hb, by simp [powLoop]⟩
  | succ fuel ih =>
    intro e b m he hb hm
    unfold powLoop
    split
    · next h0 => exact ⟨hb, by simp [h0]⟩
    · next h0 =>
      have hhalf : e / 2 < 2 ^ fuel := by
        rw [Nat.pow_succ] at he
        omega
      have hb' : (if e % 2 = 1 then b.multiply m else b).Nonzero := by
        split
        · exact hb.multiply hm
        · exact hb
      have hm' : (if e / 2 ≠ 0 then m.multiply m else m).Nonzero := by
        split
        · exact hm.multiply hm
        · exact hm
      obtain ⟨hu, hv⟩ := ih hhalf hb' hm'
      refine ⟨hu, hv.trans ?_⟩
      have hsquare : (if e / 2 ≠ 0 then m.multiply m else m).toInt ^ (e / 2) = (m.toInt * m.toInt) ^ (e / 2) := by
        split
        · rw [toInt_multiply]
        · next h => rw [not_not.mp h, pow_zero, pow_zero]
      have he' : m.toInt ^ e = m.toInt ^ (e % 2) * (m.toInt * m.toInt) ^ (e / 2) := by
        rw [← pow_two, ← pow_mul, ← pow_add, Nat.mod_add_div]
      rw [hsquare, he']
      split
      · next h1 =>
        rw [toInt_multiply, h1, pow_one]
        ring
      · next h1 =>
        rw [show e % 2 = 0 by omega, pow_zero]
        ring

theorem toNat_lt_of_int32 (e : Int32) : e.toInt.toNat < 2 ^ 31 := by
  have := e.toInt_lt
  omega

theorem nonzero_one : (assignInt64 1).Nonzero := ⟨canonical_assignInt64 1, by decide⟩

/-- `Pow` keeps the canonical form. -/
theorem canonical_pow {b : BigInteger} (h : b.Canonical) (e : Int32) : (b.pow e).Canonical := by
  unfold pow
  split
  · rw [assignInt64_zero]
    exact canonical_zero
  · split
    · exact h
    · next h0 =>
      have hne : b.mag ≠ [] := fun hnil => h0 (by simp [getBitLength, hnil])
      split
      · split
        · next hs => exact ⟨.inl (by rcases h.sign with h1 | h1 <;> simp_all), h.normalized, fun hnil => absurd hnil hne⟩
        · exact h
      · exact (powLoop_spec (toNat_lt_of_int32 e) nonzero_one ⟨h, hne⟩).1.1

theorem pow_ten_spec {k : Int32} (h : 0 ≤ k) :
    ((assignInt64 10).pow k).Nonzero ∧ ((assignInt64 10).pow k).toInt = 10 ^ k.toInt.toNat := by
  have hlen : (assignInt64 10).getBitLength = 4 := by decide
  have hten : (assignInt64 10).Nonzero := ⟨canonical_assignInt64 10, by decide⟩
  rw [pow, if_neg (Int32.not_lt.mpr h), hlen, if_neg (by decide), if_neg (by decide)]
  obtain ⟨hu, hv⟩ := powLoop_spec (toNat_lt_of_int32 k) nonzero_one hten
  rw [toInt_assignInt64, toInt_assignInt64] at hv
  refine ⟨hu, hv.trans ?_⟩
  rw [show (1 : Int64).toInt = 1 from rfl, show (10 : Int64).toInt = 10 from rfl, Int.one_mul]

/-- The table. -/
theorem toNat_tenPowerU64 (outside : Outside) {n : Int32} (h : 0 ≤ n) (h' : n < 20) :
    (tenPowerU64 outside n).toNat = 10 ^ n.toInt.toNat := by
  have hn : n.toInt.toNat < 20 := by
    have := Int32.lt_iff_toInt_lt.mp h'
    rw [show (20 : Int32).toInt = 20 from rfl] at this
    omega
  have hpow : 10 ^ n.toInt.toNat < 2 ^ 64 :=
    (Nat.pow_le_pow_right (by decide) (Nat.le_of_lt_succ hn)).trans_lt (by decide : 10 ^ 19 < 2 ^ 64)
  rw [tenPowerU64, if_pos ⟨h, h'⟩, UInt64.toNat_ofNat', Nat.mod_eq_of_lt hpow]

/-- **Powers of ten**, from the table and by squaring. -/
theorem getPowerOfTen_spec (outside : Outside) {k : Int32} (h : 0 ≤ k) :
    (getPowerOfTen outside k).Nonzero ∧ (getPowerOfTen outside k).toInt = 10 ^ k.toInt.toNat := by
  unfold getPowerOfTen
  split
  · next hk =>
    have hv : value (assignUint64 (tenPowerU64 outside k)).mag = 10 ^ k.toInt.toNat := by
      rw [value_assignUint64, toNat_tenPowerU64 outside h hk]
    refine ⟨⟨canonical_assignUint64 _, fun hnil => ?_⟩, ?_⟩
    · rw [hnil, value_nil] at hv
      exact absurd hv.symm (Nat.pos_iff_ne_zero.mp (Nat.pow_pos (by decide)))
    · rw [toInt, hv, sign_assignUint64]
      push_cast
      ring
  · exact pow_ten_spec h

theorem Canonical.sign_of_nonneg {b : BigInteger} (h : b.Canonical) (hle : 0 ≤ b.toInt) : b.sign = 1 := by
  rcases h.sign with hs | hs
  · exact hs
  · have hv : value b.mag = 0 := by
      rw [toInt, hs] at hle
      omega
    exact h.zero ((value_eq_zero_iff h.normalized).mp hv)

theorem Canonical.toInt_neg_iff {b : BigInteger} (h : b.Canonical) : b.toInt < 0 ↔ b.sign < 0 := by
  constructor
  · intro hneg
    rcases h.sign with hs | hs
    · rw [toInt, hs] at hneg
      omega
    · omega
  · intro hneg
    by_contra hnot
    have := h.sign_of_nonneg (Int.not_lt.mp hnot)
    omega

theorem value_getPowerOfTen (outside : Outside) {k : Int32} (h : 0 ≤ k) :
    (getPowerOfTen outside k).sign = 1 ∧ value (getPowerOfTen outside k).mag = 10 ^ k.toInt.toNat := by
  obtain ⟨hn, hv⟩ := getPowerOfTen_spec outside h
  have hs := hn.1.sign_of_nonneg (by rw [hv]; exact pow_nonneg (by decide) _)
  refine ⟨hs, ?_⟩
  rw [toInt, hs, Int.one_mul] at hv
  exact_mod_cast hv

/-- A power of ten is canonical and positive, whatever stands around the table. -/
theorem canonical_getPowerOfTen (outside : Outside) (k : Int32) :
    (getPowerOfTen outside k).Canonical ∧ (getPowerOfTen outside k).sign = 1 := by
  by_cases h : 0 ≤ k
  · exact ⟨(getPowerOfTen_spec outside h).1.1, (value_getPowerOfTen outside h).1⟩
  · have hlt : k < 20 := by
      have := Int32.lt_iff_toInt_lt.mp (Int32.not_le.mp h)
      rw [Int32.lt_iff_toInt_lt]
      exact this.trans (by decide)
    rw [getPowerOfTen, if_pos hlt]
    exact ⟨canonical_assignUint64 _, sign_assignUint64 _⟩

/-! ## Bytes -/

/-- A byte above the bits in use is added. -/
theorem or_shiftLeft_byte {a : UInt32} {b : UInt8} {k : UInt32} (hk : k.toNat ≤ 24) (ha : a.toNat < 2 ^ k.toNat) :
    (a ||| b.toUInt32 <<< k).toNat = a.toNat + b.toNat * 2 ^ k.toNat := by
  have hb := b.toNat_lt
  have hpow : 2 ^ k.toNat ≤ 2 ^ 24 := Nat.pow_le_pow_right (by decide) hk
  have hlt : b.toNat * 2 ^ k.toNat < 2 ^ 32 := by nlinarith
  rw [UInt32.toNat_or, UInt32.toNat_shiftLeft, UInt8.toNat_toUInt32, Nat.mod_eq_of_lt (by omega : k.toNat < 32),
    Nat.shiftLeft_eq, Nat.mod_eq_of_lt hlt, Nat.or_comm, ← Nat.shiftLeft_eq, ← Nat.shiftLeft_add_eq_or_of_lt ha,
    Nat.shiftLeft_eq, Nat.add_comm]

theorem limb_toNat (b₀ b₁ b₂ b₃ : UInt8) :
    (b₀.toUInt32 ||| b₁.toUInt32 <<< 8).toNat = b₀.toNat + b₁.toNat * 2 ^ 8 ∧
      (b₀.toUInt32 ||| b₁.toUInt32 <<< 8 ||| b₂.toUInt32 <<< 16).toNat =
        b₀.toNat + b₁.toNat * 2 ^ 8 + b₂.toNat * 2 ^ 16 ∧
      (b₀.toUInt32 ||| b₁.toUInt32 <<< 8 ||| b₂.toUInt32 <<< 16 ||| b₃.toUInt32 <<< 24).toNat =
        b₀.toNat + b₁.toNat * 2 ^ 8 + b₂.toNat * 2 ^ 16 + b₃.toNat * 2 ^ 24 := by
  have h₀ := b₀.toNat_lt
  have h₁ := b₁.toNat_lt
  have h₂ := b₂.toNat_lt
  have e₁ : (b₀.toUInt32 ||| b₁.toUInt32 <<< 8).toNat = b₀.toNat + b₁.toNat * 2 ^ 8 :=
    or_shiftLeft_byte (k := 8) (by decide) h₀
  have e₂ : (b₀.toUInt32 ||| b₁.toUInt32 <<< 8 ||| b₂.toUInt32 <<< 16).toNat =
      b₀.toNat + b₁.toNat * 2 ^ 8 + b₂.toNat * 2 ^ 16 := by
    rw [← e₁]
    exact or_shiftLeft_byte (k := 16) (by decide) (by rw [e₁]; show _ < 2 ^ 16; omega)
  refine ⟨e₁, e₂, ?_⟩
  rw [← e₂]
  exact or_shiftLeft_byte (k := 24) (by decide) (by rw [e₂]; show _ < 2 ^ 24; omega)

/-- The limbs denote what the bytes denote. -/
theorem value_limbsOfBytes (bytes : List UInt8) :
    value (limbsOfBytes bytes) = Nat.ofDigits 256 (bytes.map UInt8.toNat) := by
  fun_induction limbsOfBytes bytes with
  | case1 => rfl
  | case2 b₀ => simp
  | case3 b₀ b₁ =>
    rw [value_cons, (limb_toNat b₀ b₁ 0 0).1]
    simp [Nat.ofDigits_cons]
    omega
  | case4 b₀ b₁ b₂ =>
    rw [value_cons, (limb_toNat b₀ b₁ b₂ 0).2.1]
    simp [Nat.ofDigits_cons]
    omega
  | case5 b₀ b₁ b₂ b₃ bytes ih =>
    rw [value_cons, (limb_toNat b₀ b₁ b₂ b₃).2.2, ih]
    simp only [List.map_cons, Nat.ofDigits_cons]
    omega

theorem limbsOfBytes_ne_nil {bytes : List UInt8} (h : bytes ≠ []) : limbsOfBytes bytes ≠ [] := by
  fun_cases limbsOfBytes bytes <;> simp_all

/-- Bytes without a zero at the top make limbs without one. -/
theorem normalized_limbsOfBytes {bytes : List UInt8} (h : bytes.getLast? ≠ some 0) :
    Normalized (limbsOfBytes bytes) := by
  -- The top byte is not zero, so neither is the limb that holds it.
  have htop : ∀ b : UInt8, some b ≠ some 0 → b.toNat ≠ 0 := fun b hb h0 =>
    hb (congrArg some (UInt8.toNat_inj.mp h0))
  fun_induction limbsOfBytes bytes with
  | case1 => exact normalized_nil
  | case2 b₀ =>
    rw [normalized_singleton, UInt8.toNat_toUInt32]
    exact htop b₀ h
  | case3 b₀ b₁ =>
    rw [normalized_singleton, (limb_toNat b₀ b₁ 0 0).1]
    have := htop b₁ h
    omega
  | case4 b₀ b₁ b₂ =>
    rw [normalized_singleton, (limb_toNat b₀ b₁ b₂ 0).2.1]
    have := htop b₂ h
    omega
  | case5 b₀ b₁ b₂ b₃ bytes ih =>
    obtain _ | ⟨b, bytes⟩ := bytes
    · rw [limbsOfBytes, normalized_singleton, (limb_toNat b₀ b₁ b₂ b₃).2.2]
      have := htop b₃ h
      omega
    · exact (ih (by simpa using h)).cons (limbsOfBytes_ne_nil (List.cons_ne_nil b bytes))

theorem canonical_ofBytes (val : List UInt8) {sign : Int} (hs : sign = 1 ∨ sign = -1) (bigEndian : Bool) :
    (ofBytes val sign bigEndian).Canonical := by
  have hlast : (if bigEndian then (val.dropWhile (· == 0)).reverse else val.rdropWhile (· == 0)).getLast? ≠ some 0 := by
    have hdrop : ∀ l : List UInt8, (l.dropWhile (· == 0)).head? ≠ some 0 := by
      intro l h0
      have := List.head?_dropWhile_not (· == (0 : UInt8)) l
      rw [h0] at this
      cases this
    split
    · rw [List.getLast?_reverse]
      exact hdrop val
    · rw [List.rdropWhile, List.getLast?_reverse]
      exact hdrop val.reverse
  unfold ofBytes
  generalize (if bigEndian then (val.dropWhile (· == 0)).reverse else val.rdropWhile (· == 0)) = bytes at hlast
  dsimp only
  split
  · rw [assignInt64_zero]
    exact canonical_zero
  · next hne => exact ⟨hs, normalized_limbsOfBytes hlast, fun hnil => absurd hnil (limbsOfBytes_ne_nil hne)⟩

end BigInteger

end DocumentDbOdbc
