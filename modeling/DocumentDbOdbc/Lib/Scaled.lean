/-
Scaled integers `m * b ^ (-s)`, truncation toward zero and three-way
comparison.

A number gets a larger scale by a multiplication, which loses nothing, and a
smaller one by a division, which truncates (`truncate_scaled`). Two numbers of
one scale compare as their integers do (`scaled_lt_scaled`).
-/
import Mathlib.Data.Rat.Floor
import Mathlib.Algebra.Order.Field.Power

namespace Scaled

/-! ## Truncation -/

/-- The integer part, toward zero. -/
def truncate (q : Rat) : Int := if 0 ≤ q then ⌊q⌋ else ⌈q⌉

@[simp] theorem truncate_intCast (n : Int) : truncate n = n := by
  unfold truncate
  split <;> simp

/-- The integer part of a fraction is the quotient of truncated division. -/
theorem truncate_div (m : Int) {d : Nat} (hd : 0 < d) : truncate (m / d) = m.tdiv d := by
  have hpos : (0 : Rat) < d := by exact_mod_cast hd
  unfold truncate
  split
  · next h =>
    have hm : 0 ≤ m := by
      by_contra hlt
      exact absurd h (not_le.mpr (div_neg_of_neg_of_pos (by exact_mod_cast not_le.mp hlt) hpos))
    rw [Rat.floor_intCast_div_natCast, Int.tdiv_eq_ediv_of_nonneg hm]
  · next h =>
    have hm : m < 0 := by
      by_contra hge
      exact h (div_nonneg (by exact_mod_cast not_lt.mp hge) hpos.le)
    have hneg : ((m : Rat) / d) = -(((-m : Int) : Rat) / d) := by
      push_cast
      ring
    rw [hneg, Int.ceil_neg, Rat.floor_intCast_div_natCast, ← Int.tdiv_eq_ediv_of_nonneg (by omega), Int.neg_tdiv,
      Int.neg_neg]

/-! ## Scales -/

variable {b : Nat}

def scaled (b : Nat) (m s : Int) : Rat := m * (b : Rat) ^ (-s)

/-- A larger scale. -/
theorem scaled_mul_of_le (hb : 0 < b) (m : Int) {s t : Int} (h : s ≤ t) :
    scaled b m s * (b : Rat) ^ t = (m * b ^ (t - s).toNat : Int) := by
  have hne : (b : Rat) ≠ 0 := by exact_mod_cast hb.ne'
  rw [scaled, mul_assoc, ← zpow_add₀ hne, show -s + t = ((t - s).toNat : Int) by omega, zpow_natCast]
  push_cast
  rfl

/-- A smaller scale. -/
theorem scaled_mul_of_ge (hb : 0 < b) (m : Int) {s t : Int} (h : t ≤ s) :
    scaled b m s * (b : Rat) ^ t = m / (b ^ (s - t).toNat : Nat) := by
  have hne : (b : Rat) ≠ 0 := by exact_mod_cast hb.ne'
  rw [scaled, mul_assoc, ← zpow_add₀ hne, show -s + t = -((s - t).toNat : Int) by omega, zpow_neg, zpow_natCast,
    div_eq_mul_inv]
  push_cast
  rfl

/-- The integer at another scale. -/
theorem truncate_scaled (hb : 0 < b) (m s t : Int) :
    truncate (scaled b m s * (b : Rat) ^ t) =
      if t < s then m.tdiv (b ^ (s - t).toNat : Nat) else m * b ^ (t - s).toNat := by
  split
  · next h => rw [scaled_mul_of_ge hb m h.le, truncate_div m (Nat.pow_pos hb)]
  · next h => rw [scaled_mul_of_le hb m (not_lt.mp h), truncate_intCast]

/-- A multiplication keeps the number. -/
theorem scaled_mul_pow (hb : 0 < b) (m s : Int) (k : Nat) : scaled b (m * b ^ k) (s + k) = scaled b m s := by
  have hne : (b : Rat) ≠ 0 := by exact_mod_cast hb.ne'
  rw [scaled, scaled, neg_add, zpow_add₀ hne, zpow_neg (b : Rat) k, zpow_natCast]
  push_cast
  field_simp

/-! ## Comparison -/

/-- A number that is negative, zero or positive as one element is below, equal
to or above another. -/
structure Orders {α : Type} [LT α] (c : Int) (x y : α) : Prop where
  neg : c < 0 ↔ x < y
  zero : c = 0 ↔ x = y
  pos : 0 < c ↔ y < x

section Order

variable {α : Type} [LinearOrder α] {c c' c'' : Int} {x y z : α}

theorem Orders.le_iff (h : Orders c x y) : c ≤ 0 ↔ x ≤ y := by
  rw [← not_lt, ← not_lt]
  exact not_congr h.pos

theorem Orders.antisymm (h : Orders c x y) (h' : Orders c' y x) (hle : c ≤ 0) (hle' : c' ≤ 0) : x = y :=
  le_antisymm (h.le_iff.mp hle) (h'.le_iff.mp hle')

theorem Orders.trans (h : Orders c x y) (h' : Orders c' y z) (h'' : Orders c'' x z) (hle : c ≤ 0) (hle' : c' ≤ 0) :
    c'' ≤ 0 :=
  h''.le_iff.mpr ((h.le_iff.mp hle).trans (h'.le_iff.mp hle'))

theorem Orders.total (h : Orders c x y) (h' : Orders c' y x) : c ≤ 0 ∨ c' ≤ 0 :=
  (le_total x y).imp h.le_iff.mpr h'.le_iff.mpr

/-- Along a strictly increasing map. -/
theorem Orders.map {β : Type} [LinearOrder β] {f : α → β} (hf : StrictMono f) (h : Orders c x y) :
    Orders c (f x) (f y) :=
  ⟨h.neg.trans hf.lt_iff_lt.symm, h.zero.trans hf.injective.eq_iff.symm, h.pos.trans hf.lt_iff_lt.symm⟩

end Order

theorem scaled_lt_scaled (hb : 0 < b) (s : Int) {m m' : Int} (h : m < m') : scaled b m s < scaled b m' s := by
  have hpos : (0 : Rat) < (b : Rat) ^ (-s) := zpow_pos (by exact_mod_cast hb) _
  exact mul_lt_mul_of_pos_right (by exact_mod_cast h) hpos

end Scaled
