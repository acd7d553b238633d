/-
Natural numbers as lists of 32-bit limbs, the lowest first.

`value` is Mathlib's `Nat.ofDigits` in base `2 ^ 32`. A list without a zero at
its top is the only such list of its number (`value_inj`), and `trim` cuts any
list down to it. The second part is long division: what each of its rounds divides
(`roundDividend`), and how the trial quotient of the leading limbs relates to
the quotient of the whole numbers (`TrialsExact`).
-/
import Mathlib.Data.List.DropRight
import Mathlib.Data.Nat.Digits.Lemmas
import Mathlib.Tactic.Linarith
import Mathlib.Tactic.Ring

namespace Limbs

def value (l : List UInt32) : Nat := Nat.ofDigits (2 ^ 32) (l.map UInt32.toNat)

@[simp] theorem value_nil : value [] = 0 := rfl

@[simp] theorem value_cons (x : UInt32) (l : List UInt32) : value (x :: l) = x.toNat + 2 ^ 32 * value l := by
  simp [value, Nat.ofDigits_cons]

theorem pow_length_cons (x : UInt32) (l : List UInt32) :
    (2 ^ 32) ^ (x :: l).length = 2 ^ 32 * (2 ^ 32) ^ l.length := Nat.pow_succ'

theorem value_append (l l' : List UInt32) : value (l ++ l') = value l + (2 ^ 32) ^ l.length * value l' := by
  simp [value, Nat.ofDigits_append]

theorem value_concat (l : List UInt32) (x : UInt32) :
    value (l ++ [x]) = value l + (2 ^ 32) ^ l.length * x.toNat := by
  simp [value_append]

theorem value_lt (l : List UInt32) : value l < (2 ^ 32) ^ l.length := by
  have h := Nat.ofDigits_lt_base_pow_length (b := 2 ^ 32) (l := l.map UInt32.toNat) (by decide) (by
    intro d hd
    obtain ⟨x, -, rfl⟩ := List.mem_map.mp hd
    exact x.toNat_lt)
  simpa [value] using h

/-- The limbs below some limbs count for less than one of them. -/
theorem value_append_lt (l l' : List UInt32) : value (l ++ l') < (2 ^ 32) ^ l.length * (value l' + 1) := by
  have hl := value_lt l
  rw [value_append, Nat.mul_succ]
  omega

theorem value_concat_lt (l : List UInt32) (x : UInt32) : value (l ++ [x]) < (2 ^ 32) ^ (l.length + 1) := by
  have h := value_lt (l ++ [x])
  rwa [List.length_append, List.length_singleton] at h

@[simp] theorem value_replicate_zero (n : Nat) : value (List.replicate n 0) = 0 := by
  induction n with
  | zero => rfl
  | succ n ih => simp [List.replicate_succ, ih]

/-! ## Lists without a zero at the top -/

/-- No zero limb at the top. -/
def Normalized (l : List UInt32) : Prop := l.getLast? ≠ some 0

instance (l : List UInt32) : Decidable (Normalized l) := inferInstanceAs (Decidable (_ ≠ _))

theorem normalized_nil : Normalized [] := by simp [Normalized]

theorem normalized_concat {l : List UInt32} {x : UInt32} : Normalized (l ++ [x]) ↔ x ≠ 0 := by
  simp [Normalized]

theorem normalized_singleton {x : UInt32} : Normalized [x] ↔ x.toNat ≠ 0 := by
  rw [← List.nil_append [x], normalized_concat, ne_eq, ← UInt32.toNat_inj, UInt32.toNat_zero]

theorem Normalized.cons {x : UInt32} {l : List UInt32} (h : Normalized l) (hne : l ≠ []) : Normalized (x :: l) := by
  rwa [Normalized, List.getLast?_cons_of_ne_nil hne]

/-- The list without the zeros at its top. -/
def trim (l : List UInt32) : List UInt32 := l.rdropWhile (· == 0)

theorem normalized_trim (l : List UInt32) : Normalized (trim l) := by
  intro h
  have hne : trim l ≠ [] := by
    intro he
    rw [he] at h
    cases h
  have hlast : ¬ ((trim l).getLast hne == 0) = true := List.rdropWhile_last_not (· == (0 : UInt32)) l hne
  rw [List.getLast?_eq_some_getLast hne] at h
  rw [Option.some.inj h] at hlast
  exact hlast rfl

@[simp] theorem value_trim (l : List UInt32) : value (trim l) = value l := by
  induction l using List.reverseRecOn with
  | nil => rfl
  | append_singleton l x ih =>
    by_cases hx : x = 0
    · subst hx
      rw [trim, List.rdropWhile_concat_pos _ _ _ rfl, ← trim, ih, value_concat]
      simp
    · rw [trim, List.rdropWhile_concat_neg _ _ _ (by simpa using hx)]

theorem pow_le_value {l : List UInt32} {x : UInt32} (h : x ≠ 0) : (2 ^ 32) ^ l.length ≤ value (l ++ [x]) := by
  have hx : 1 ≤ x.toNat := by
    rw [Nat.one_le_iff_ne_zero]
    exact fun h0 => h (UInt32.toNat_inj.mp h0)
  rw [value_concat]
  nlinarith [Nat.zero_le (value l), Nat.one_le_pow l.length (2 ^ 32) (by decide)]

theorem eq_nil_or_concat (l : List UInt32) : l = [] ∨ ∃ l' x, l = l' ++ [x] := by
  induction l using List.reverseRecOn with
  | nil => exact .inl rfl
  | append_singleton l x _ => exact .inr ⟨l, x, rfl⟩

theorem value_eq_zero_iff {l : List UInt32} (h : Normalized l) : value l = 0 ↔ l = [] := by
  constructor
  · intro h0
    obtain rfl | ⟨l, x, rfl⟩ := eq_nil_or_concat l
    · rfl
    · have hle := pow_le_value (l := l) (normalized_concat.mp h)
      have := Nat.one_le_pow l.length (2 ^ 32) (by decide)
      omega
  · rintro rfl
    rfl

theorem Normalized.value_pos {l : List UInt32} (h : Normalized l) (hne : l ≠ []) : 0 < value l :=
  Nat.pos_of_ne_zero (mt (value_eq_zero_iff h).mp hne)

/-- The more limbs, the larger the number. -/
theorem length_le_of_value_le {l l' : List UInt32} (h : Normalized l) (hle : value l ≤ value l') :
    l.length ≤ l'.length := by
  obtain rfl | ⟨l, x, rfl⟩ := eq_nil_or_concat l
  · exact Nat.zero_le _
  · have hlow := pow_le_value (l := l) (normalized_concat.mp h)
    have hhigh := value_lt l'
    rw [List.length_append, List.length_singleton]
    exact (Nat.pow_lt_pow_iff_right (by decide)).mp ((hlow.trans hle).trans_lt hhigh)

/-- **A number has one list** without a zero at the top. -/
theorem value_inj {l l' : List UInt32} (h : Normalized l) (h' : Normalized l') (he : value l = value l') :
    l = l' := by
  have hlen : l.length = l'.length :=
    Nat.le_antisymm (length_le_of_value_le h he.le) (length_le_of_value_le h' he.ge)
  have hmap : l.map UInt32.toNat = l'.map UInt32.toNat := by
    refine Nat.ofDigits_inj_of_len_eq (b := 2 ^ 32) (by decide) (by simpa using hlen) ?_ ?_ he <;>
      · intro d hd
        obtain ⟨x, -, rfl⟩ := List.mem_map.mp hd
        exact x.toNat_lt
  exact List.map_injective_iff.mpr (fun _ _ => UInt32.toNat_inj.mp) hmap

theorem pow_length_le_value {l : List UInt32} (h : Normalized l) (hne : l ≠ []) :
    (2 ^ 32) ^ (l.length - 1) ≤ value l := by
  obtain rfl | ⟨l, x, rfl⟩ := eq_nil_or_concat l
  · exact absurd rfl hne
  · rw [List.length_append, List.length_singleton, Nat.add_sub_cancel]
    exact pow_le_value (normalized_concat.mp h)

/-- A list with its full number of limbs in use is normalized. -/
theorem normalized_of_le {l : List UInt32} (h : (2 ^ 32) ^ (l.length - 1) ≤ value l) : Normalized l := by
  obtain rfl | ⟨l, x, rfl⟩ := eq_nil_or_concat l
  · exact normalized_nil
  · rw [normalized_concat]
    rintro rfl
    have hlt := value_lt l
    rw [List.length_append, List.length_singleton, Nat.add_sub_cancel, value_concat] at h
    simp only [UInt32.toNat_zero, Nat.mul_zero, Nat.add_zero] at h
    omega

/-! ## Long division -/

section LongDivision

variable {B n d : Nat}

/-- What round `i` of the long division of `n` by `d` divides: what the rounds
above have left, and one more digit. -/
def roundDividend (B n d i : Nat) : Nat := B * (n / B ^ (i + 1) % d) + n / B ^ i % B

/-- The top round, when the digits above its own are a remainder. -/
theorem roundDividend_top {k low x r : Nat} (hlow : low < B ^ k) (hx : x < B) (hr : r < d) :
    roundDividend B (low + B ^ k * (x + B * r)) d k = x + B * r := by
  have hpos : 0 < B ^ k := Nat.zero_lt_of_lt hlow
  have hdiv : (low + B ^ k * (x + B * r)) / B ^ k = x + B * r := by
    rw [Nat.add_mul_div_left _ _ hpos, Nat.div_eq_of_lt hlow, Nat.zero_add]
  have hdiv' : (x + B * r) / B = r := by
    rw [Nat.add_mul_div_left _ _ (Nat.zero_lt_of_lt hx), Nat.div_eq_of_lt hx, Nat.zero_add]
  rw [roundDividend, Nat.pow_succ, ← Nat.div_div_eq_div_mul, hdiv, hdiv', Nat.mod_eq_of_lt hr,
    Nat.add_mul_mod_self_left, Nat.mod_eq_of_lt hx, Nat.add_comm]

/-- The rounds below `k` do not see the digit of round `k`. -/
theorem roundDividend_add {k i : Nat} (hB : 0 < B) (hi : i < k) (q : Nat) :
    roundDividend B (n + d * (B ^ k * q)) d i = roundDividend B n d i := by
  obtain ⟨j, rfl⟩ := Nat.exists_eq_add_of_lt hi
  have hhigh : (n + d * (B ^ (i + j + 1) * q)) / B ^ (i + 1) % d = n / B ^ (i + 1) % d := by
    rw [show n + d * (B ^ (i + j + 1) * q) = n + B ^ (i + 1) * (d * (B ^ j * q)) by ring,
      Nat.add_mul_div_left _ _ (Nat.pow_pos hB), Nat.add_mul_mod_self_left]
  have hlow : (n + d * (B ^ (i + j + 1) * q)) / B ^ i % B = n / B ^ i % B := by
    rw [show n + d * (B ^ (i + j + 1) * q) = n + B ^ i * (B * (d * (B ^ j * q))) by ring,
      Nat.add_mul_div_left _ _ (Nat.pow_pos hB), Nat.add_mul_mod_self_left]
  rw [roundDividend, roundDividend, hhigh, hlow]

/-- The digit of a round is a digit. -/
theorem roundDividend_div_lt (hB : 0 < B) (hd : 0 < d) (i : Nat) : roundDividend B n d i / d < B := by
  have hmod := Nat.mod_lt (n / B ^ (i + 1)) hd
  have hdigit := Nat.mod_lt (n / B ^ i) hB
  rw [Nat.div_lt_iff_lt_mul hd, roundDividend]
  nlinarith

/-- The trial quotient by a divisor of `k` digits: that of the leading digits
by the two leading ones, as a digit. -/
def trialQuotient (B k u d : Nat) : Nat := min (B - 1) (u / B ^ (k - 2) / (d / B ^ (k - 2)))

/-- It is at least the quotient. -/
theorem le_trialQuotient {k u : Nat} (h : u / d < B) (hd : 0 < d / B ^ (k - 2)) : u / d ≤ trialQuotient B k u d := by
  refine Nat.le_min.mpr ⟨Nat.le_sub_one_of_lt h, ?_⟩
  rw [Nat.div_div_eq_div_mul]
  have hpos : 0 < B ^ (k - 2) := Nat.pos_of_ne_zero fun h0 => by simp [h0] at hd
  exact Nat.div_le_div_left (Nat.mul_div_le d _) (Nat.mul_pos hpos hd)

/-- The trial quotients of the lowest rounds are the digits. -/
def TrialsExact (B k rounds n d : Nat) : Prop :=
  ∀ i < rounds, trialQuotient B k (roundDividend B n d i) d = roundDividend B n d i / d

instance (B k rounds n d : Nat) : Decidable (TrialsExact B k rounds n d) :=
  inferInstanceAs (Decidable (∀ i < rounds, _ = _))

/-- For a divisor of two digits they are. -/
theorem trialsExact_two (hB : 0 < B) (hd : 0 < d) (rounds : Nat) : TrialsExact B 2 rounds n d := by
  intro i _
  have hlt := roundDividend_div_lt (n := n) hB hd i
  rw [trialQuotient, pow_zero, Nat.div_one, Nat.div_one]
  omega

/-- So are those of the rounds in which the dividend is too short for a digit,
by more than the limbs the trial quotient does not see. -/
theorem trialQuotient_above {k i j : Nat} (hd : 0 < d / B ^ (k - 2)) (h : n / B ^ j + B ^ (k - 2) ≤ d) (hi : j ≤ i) :
    trialQuotient B k (roundDividend B n d i) d = roundDividend B n d i / d := by
  have hpos : 0 < B ^ (k - 2) := Nat.pos_of_ne_zero fun h0 => by simp [h0] at hd
  obtain ⟨t, rfl⟩ := Nat.exists_eq_add_of_le hi
  have hshort : n / B ^ (j + t) ≤ n / B ^ j := by
    rw [Nat.pow_add, ← Nat.div_div_eq_div_mul]
    exact Nat.div_le_self _ _
  have hshort' : n / B ^ (j + t + 1) ≤ n / B ^ (j + t) := by
    rw [Nat.pow_succ, ← Nat.div_div_eq_div_mul]
    exact Nat.div_le_self _ _
  have hround : roundDividend B n d (j + t) = n / B ^ (j + t) := by
    rw [roundDividend, Nat.mod_eq_of_lt (by omega), Nat.pow_succ, ← Nat.div_div_eq_div_mul]
    exact Nat.div_add_mod _ _
  have htrial : n / B ^ (j + t) / B ^ (k - 2) < d / B ^ (k - 2) := by
    rw [Nat.div_lt_iff_lt_mul hpos]
    have hdm := Nat.div_add_mod d (B ^ (k - 2))
    have hmod := Nat.mod_lt d hpos
    rw [Nat.mul_comm] at hdm
    omega
  rw [hround, trialQuotient, Nat.div_eq_of_lt htrial, Nat.div_eq_of_lt (by omega), Nat.min_zero]

end LongDivision

/-! The trial quotient `qhat` of the two leading limbs `w₂ w₁` by the leading
limb `v₁` comes with its remainder `rhat`. The next limbs `w₀` and `v₀` tell
whether it is above that of the three limbs by the two. -/

section Trial

variable {B v₁ v₀ w qhat rhat w₀ : Nat}

/-- A trial quotient that passes the test is not too large. -/
theorem trial_le (hq : qhat * v₁ + rhat = w) (htest : qhat * v₀ ≤ B * rhat + w₀) (hv : 0 < v₁ * B + v₀) :
    qhat ≤ (w * B + w₀) / (v₁ * B + v₀) := by
  rw [Nat.le_div_iff_mul_le hv]
  calc qhat * (v₁ * B + v₀) = qhat * v₁ * B + qhat * v₀ := by ring
    _ ≤ qhat * v₁ * B + (B * rhat + w₀) := Nat.add_le_add_left htest _
    _ = (qhat * v₁ + rhat) * B + w₀ := by ring
    _ = w * B + w₀ := by rw [hq]

/-- One that fails it is. -/
theorem trial_gt (hq : qhat * v₁ + rhat = w) (htest : B * rhat + w₀ < qhat * v₀) (hv : 0 < v₁ * B + v₀) :
    (w * B + w₀) / (v₁ * B + v₀) < qhat := by
  rw [Nat.div_lt_iff_lt_mul hv]
  calc w * B + w₀ = qhat * v₁ * B + (B * rhat + w₀) := by rw [← hq]; ring
    _ < qhat * v₁ * B + qhat * v₀ := Nat.add_lt_add_left htest _
    _ = qhat * (v₁ * B + v₀) := by ring

/-- The first trial quotient is at least the quotient. -/
theorem le_trial (hB : 0 < B) (hv : 0 < v₁) (hw₀ : w₀ < B) : (w * B + w₀) / (v₁ * B + v₀) ≤ w / v₁ := by
  have hle : v₁ * B ≤ v₁ * B + v₀ := Nat.le_add_right _ _
  calc (w * B + w₀) / (v₁ * B + v₀) ≤ (w * B + w₀) / (v₁ * B) :=
        Nat.div_le_div_left hle (Nat.mul_pos hv hB)
    _ = (w * B + w₀) / B / v₁ := by rw [Nat.mul_comm v₁ B, Nat.div_div_eq_div_mul]
    _ = w / v₁ := by
      rw [Nat.mul_comm w B, Nat.mul_add_div hB, Nat.div_eq_of_lt hw₀, Nat.add_zero]

end Trial

end Limbs
