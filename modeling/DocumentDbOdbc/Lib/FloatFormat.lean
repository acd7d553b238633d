/-
Binary floating-point formats with a sign, a biased exponent and a fraction,
and the integers among their numbers.

A finite number is a multiple of the least positive one, `scaled` times it, and
`unit` times it is one. `ofInt` gives a number for an integer, by its leading
bits; where a number of the format is the integer, so is this one
(`denotes_ofInt`).
-/
import Mathlib.Data.Nat.Size
import Mathlib.Tactic.Ring

/-- The bits of the two fields; an exponent has at least two. -/
structure FloatFormat where
  exponentBits : Nat
  fractionBits : Nat
  two_le : 2 ≤ exponentBits

namespace FloatFormat

/-- The formats of 32 and of 64 bits. -/
def single : FloatFormat := ⟨8, 23, by decide⟩

def double : FloatFormat := ⟨11, 52, by decide⟩

variable (F : FloatFormat)

def bias : Nat := 2 ^ (F.exponentBits - 1) - 1

/-- The bits of a number. -/
def bits : Nat := F.exponentBits + F.fractionBits + 1

/-- One, as a multiple of the least positive number. -/
def unit : Nat := 2 ^ (F.bias - 1 + F.fractionBits)

def fraction (x : Nat) : Nat := x % 2 ^ F.fractionBits

def exponent (x : Nat) : Nat := x / 2 ^ F.fractionBits % 2 ^ F.exponentBits

def negative (x : Nat) : Bool := x / 2 ^ (F.exponentBits + F.fractionBits) % 2 = 1

/-- Neither an infinity nor no number. -/
def Finite (x : Nat) : Prop := F.exponent x ≠ 2 ^ F.exponentBits - 1

/-- The fraction behind a one that is not stored, or behind a zero. -/
def significand (x : Nat) : Nat := if F.exponent x = 0 then F.fraction x else 2 ^ F.fractionBits + F.fraction x

/-- The number, as a multiple of the least positive one. -/
def scaled (x : Nat) : Int :=
  let n : Int := (F.significand x * 2 ^ (F.exponent x - 1) : Nat)
  if F.negative x then -n else n

/-- The number is the integer. -/
def Denotes (x : Nat) (v : Int) : Prop := F.Finite x ∧ F.scaled x = v * F.unit

instance (x : Nat) (v : Int) : Decidable (F.Denotes x v) :=
  inferInstanceAs (Decidable (F.exponent x ≠ 2 ^ F.exponentBits - 1 ∧ F.scaled x = v * F.unit))

/-- The integer part. -/
def toInt (x : Nat) : Int := (F.scaled x).tdiv F.unit

/-- The number with the leading bits of the integer. -/
def ofInt (v : Int) : Nat :=
  let n := v.natAbs
  if n = 0 then 0
  else
    let size := n.size
    let significand := n * 2 ^ F.fractionBits / 2 ^ (size - 1)
    (if v < 0 then 2 ^ (F.exponentBits + F.fractionBits) else 0) +
      ((size - 1 + F.bias) * 2 ^ F.fractionBits + (significand - 2 ^ F.fractionBits))

theorem unit_pos : 0 < F.unit := Nat.pow_pos (by decide)

theorem bias_spec : 2 ^ F.exponentBits = 2 * F.bias + 2 ∧ 1 ≤ F.bias := by
  have htwo := F.two_le
  have hhalf : 2 ^ F.exponentBits = 2 * 2 ^ (F.exponentBits - 1) := by
    rw [← Nat.pow_succ']
    congr 1
    omega
  have hge : 2 ^ 1 ≤ 2 ^ (F.exponentBits - 1) := Nat.pow_le_pow_right (by decide) (by omega)
  unfold bias
  omega

/-- The integer part of an integer. -/
theorem toInt_of_denotes {x : Nat} {v : Int} (h : F.Denotes x v) : F.toInt x = v := by
  rw [toInt, h.2]
  exact Int.mul_tdiv_cancel v (by have := F.unit_pos; omega)

/-! ## The fields of a number -/

theorem fields {s E r : Nat} (hs : s < 2) (hE : E < 2 ^ F.exponentBits) (hr : r < 2 ^ F.fractionBits) :
    let x := s * 2 ^ (F.exponentBits + F.fractionBits) + (E * 2 ^ F.fractionBits + r)
    F.fraction x = r ∧ F.exponent x = E ∧ F.negative x = decide (s = 1) := by
  intro x
  have hx : x = (s * 2 ^ F.exponentBits + E) * 2 ^ F.fractionBits + r := by
    simp only [x, Nat.pow_add]
    ring
  have hpos : 0 < 2 ^ F.fractionBits := Nat.pow_pos (by decide)
  have hpos' : 0 < 2 ^ F.exponentBits := Nat.pow_pos (by decide)
  have hdiv : x / 2 ^ F.fractionBits = s * 2 ^ F.exponentBits + E := by
    rw [hx, Nat.mul_comm, Nat.mul_add_div hpos, Nat.div_eq_of_lt hr, Nat.add_zero]
  refine ⟨?_, ?_, ?_⟩
  · rw [fraction, hx, Nat.mul_comm, Nat.mul_add_mod, Nat.mod_eq_of_lt hr]
  · rw [exponent, hdiv, Nat.mul_comm, Nat.mul_add_mod, Nat.mod_eq_of_lt hE]
  · have hsign : x / 2 ^ (F.exponentBits + F.fractionBits) = s := by
      rw [Nat.add_comm, Nat.pow_add, ← Nat.div_div_eq_div_mul, hdiv, Nat.mul_comm, Nat.mul_add_div hpos',
        Nat.div_eq_of_lt hE, Nat.add_zero]
    rw [negative, hsign, Nat.mod_eq_of_lt hs]

theorem significand_lt (x : Nat) : F.significand x < 2 ^ (F.fractionBits + 1) := by
  have hfraction : F.fraction x < 2 ^ F.fractionBits := Nat.mod_lt _ (Nat.pow_pos (by decide))
  rw [significand, Nat.pow_succ]
  split <;> omega

theorem natAbs_scaled (x : Nat) : (F.scaled x).natAbs = F.significand x * 2 ^ (F.exponent x - 1) := by
  unfold scaled
  dsimp only
  split
  · rw [Int.natAbs_neg, Int.natAbs_natCast]
  · rw [Int.natAbs_natCast]

/-! ## Integers -/

/-- The leading bit. -/
theorem pow_size_le {n : Nat} (hn : n ≠ 0) : 0 < n.size ∧ 2 ^ (n.size - 1) ≤ n ∧ n < 2 ^ (n.size - 1) * 2 := by
  have hpos := Nat.size_pos.mpr (Nat.pos_of_ne_zero hn)
  refine ⟨hpos, Nat.lt_size.mp (by omega), ?_⟩
  rw [← Nat.pow_succ]
  exact Nat.size_le.mp (by omega)

/-- The bits of an integer that is a number: none is lost behind the fraction,
and the exponent is in range. -/
theorem size_of_denotes {x : Nat} {v : Int} (h : F.Denotes x v) (hv : v ≠ 0) :
    2 ^ (v.natAbs.size - 1) ∣ v.natAbs * 2 ^ F.fractionBits ∧ v.natAbs.size - 1 ≤ F.bias := by
  obtain ⟨hpow, hbias⟩ := F.bias_spec
  have hexponent : F.exponent x < 2 ^ F.exponentBits := Nat.mod_lt _ (Nat.pow_pos (by decide))
  have hfinite : F.exponent x ≠ 2 ^ F.exponentBits - 1 := h.1
  have hlow := (pow_size_le (Int.natAbs_ne_zero.mpr hv)).2.1
  have hscaled : F.significand x * 2 ^ (F.exponent x - 1) = v.natAbs * 2 ^ F.fractionBits * 2 ^ (F.bias - 1) := by
    rw [← natAbs_scaled, h.2, Int.natAbs_mul, Int.natAbs_natCast, unit, Nat.pow_add]
    ring
  -- the leading bit is not above that of the significand
  have hle : v.natAbs.size - 1 + (F.bias - 1) ≤ F.exponent x - 1 := by
    have hlt : 2 ^ (v.natAbs.size - 1 + F.fractionBits + (F.bias - 1)) < 2 ^ (F.fractionBits + 1 + (F.exponent x - 1)) := by
      calc 2 ^ (v.natAbs.size - 1 + F.fractionBits + (F.bias - 1))
          = 2 ^ (v.natAbs.size - 1) * 2 ^ F.fractionBits * 2 ^ (F.bias - 1) := by rw [Nat.pow_add, Nat.pow_add]
        _ ≤ v.natAbs * 2 ^ F.fractionBits * 2 ^ (F.bias - 1) := Nat.mul_le_mul_right _ (Nat.mul_le_mul_right _ hlow)
        _ = F.significand x * 2 ^ (F.exponent x - 1) := hscaled.symm
        _ < 2 ^ (F.fractionBits + 1) * 2 ^ (F.exponent x - 1) :=
            Nat.mul_lt_mul_of_pos_right (F.significand_lt x) (Nat.pow_pos (by decide))
        _ = 2 ^ (F.fractionBits + 1 + (F.exponent x - 1)) := (Nat.pow_add ..).symm
    have := (Nat.pow_lt_pow_iff_right (by decide : 1 < 2)).mp hlt
    omega
  refine ⟨?_, by omega⟩
  have hdvd : 2 ^ (v.natAbs.size - 1) * 2 ^ (F.bias - 1) ∣ v.natAbs * 2 ^ F.fractionBits * 2 ^ (F.bias - 1) := by
    rw [← hscaled, ← Nat.pow_add]
    exact (Nat.pow_dvd_pow 2 hle).mul_left _
  exact Nat.dvd_of_mul_dvd_mul_right (Nat.pow_pos (by decide)) hdvd

/-- The number made of an integer has its sign, its leading bits and their
place. -/
theorem ofInt_fields {v : Int} {σ : Nat} (hv : v ≠ 0) (hσ : v.natAbs * 2 ^ F.fractionBits = 2 ^ (v.natAbs.size - 1) * σ)
    (hsize : v.natAbs.size - 1 ≤ F.bias) :
    F.exponent (F.ofInt v) = v.natAbs.size - 1 + F.bias ∧ F.significand (F.ofInt v) = σ ∧
      F.negative (F.ofInt v) = decide (v < 0) ∧ F.ofInt v < 2 ^ F.bits := by
  obtain ⟨hpow, hbias⟩ := F.bias_spec
  obtain ⟨-, hlow, hhigh⟩ := pow_size_le (Int.natAbs_ne_zero.mpr hv)
  have hpos : 0 < 2 ^ (v.natAbs.size - 1) := Nat.pow_pos (by decide)
  have hσlow : 2 ^ F.fractionBits ≤ σ := by
    refine Nat.le_of_mul_le_mul_left ?_ hpos
    rw [← hσ]
    exact Nat.mul_le_mul_right _ hlow
  have hσhigh : σ < 2 * 2 ^ F.fractionBits := by
    refine Nat.lt_of_mul_lt_mul_left (a := 2 ^ (v.natAbs.size - 1)) ?_
    rw [← hσ, ← Nat.mul_assoc]
    exact Nat.mul_lt_mul_of_pos_right hhigh (Nat.pow_pos (by decide))
  have hnumber : F.ofInt v = (if v < 0 then 1 else 0) * 2 ^ (F.exponentBits + F.fractionBits) +
      ((v.natAbs.size - 1 + F.bias) * 2 ^ F.fractionBits + (σ - 2 ^ F.fractionBits)) := by
    unfold ofInt
    dsimp only
    rw [if_neg (by omega), hσ, Nat.mul_div_cancel_left _ hpos]
    split <;> simp
  obtain ⟨hfraction, hexponent, hnegative⟩ := F.fields (s := if v < 0 then 1 else 0) (E := v.natAbs.size - 1 + F.bias)
    (r := σ - 2 ^ F.fractionBits) (by split <;> omega) (by omega) (by omega)
  rw [← hnumber] at hfraction hexponent hnegative
  refine ⟨hexponent, ?_, ?_, ?_⟩
  · rw [significand, hexponent, hfraction, if_neg (by omega)]
    omega
  · rw [hnegative]
    split <;> simp [*]
  · rw [hnumber, bits, Nat.pow_succ, Nat.pow_add]
    have hbound : (v.natAbs.size - 1 + F.bias) * 2 ^ F.fractionBits + (σ - 2 ^ F.fractionBits) <
        2 ^ F.exponentBits * 2 ^ F.fractionBits := by
      calc (v.natAbs.size - 1 + F.bias) * 2 ^ F.fractionBits + (σ - 2 ^ F.fractionBits)
          < (v.natAbs.size - 1 + F.bias + 1) * 2 ^ F.fractionBits := by rw [Nat.succ_mul]; omega
        _ ≤ 2 ^ F.exponentBits * 2 ^ F.fractionBits := Nat.mul_le_mul_right _ (by omega)
    split <;> omega

theorem denotes_zero : F.Denotes 0 0 := by
  obtain ⟨hpow, hbias⟩ := F.bias_spec
  refine ⟨?_, by simp [scaled, significand, exponent, fraction]⟩
  rw [Finite, exponent, Nat.zero_div, Nat.zero_mod]
  omega

/-- **Integers.** The number made of an integer is the integer, if one is. -/
theorem denotes_ofInt {x : Nat} {v : Int} (h : F.Denotes x v) : F.Denotes (F.ofInt v) v ∧ F.ofInt v < 2 ^ F.bits := by
  obtain ⟨hpow, hbias⟩ := F.bias_spec
  by_cases hv : v = 0
  · subst hv
    exact ⟨F.denotes_zero, Nat.pow_pos (by decide)⟩
  obtain ⟨⟨σ, hσ⟩, hsize⟩ := F.size_of_denotes h hv
  obtain ⟨hexponent, hsignificand, hnegative, hlt⟩ := F.ofInt_fields hv hσ hsize
  refine ⟨⟨?_, ?_⟩, hlt⟩
  · rw [Finite, hexponent]
    omega
  · have hmagnitude : σ * 2 ^ (v.natAbs.size - 1 + F.bias - 1) = v.natAbs * F.unit := by
      have hexp : v.natAbs.size - 1 + F.bias - 1 = v.natAbs.size - 1 + (F.bias - 1) := by omega
      calc σ * 2 ^ (v.natAbs.size - 1 + F.bias - 1)
          = 2 ^ (v.natAbs.size - 1) * σ * 2 ^ (F.bias - 1) := by rw [hexp, Nat.pow_add]; ring
        _ = v.natAbs * F.unit := by rw [← hσ, unit, Nat.pow_add]; ring
    have hcast : ((v.natAbs * F.unit : Nat) : Int) = |v| * F.unit := by rw [Nat.cast_mul, Int.natCast_natAbs]
    rw [scaled, hsignificand, hexponent, hnegative, hmagnitude]
    by_cases hneg : v < 0
    · simp only [hneg, decide_true, if_true]
      rw [hcast, abs_of_neg hneg, Int.neg_mul, Int.neg_neg]
    · simp only [hneg, decide_false, Bool.false_eq_true, if_false]
      rw [hcast, abs_of_nonneg (Int.not_lt.mp hneg)]

end FloatFormat
