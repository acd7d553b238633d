/-
Numbers in base 256: the value of a row of bytes, the lowest first, and the
bytes of an integer.
-/
import Mathlib.Data.Nat.Digits.Lemmas
import Mathlib.Tactic.Linarith
import Mathlib.Tactic.Ring

namespace Bytes

/-- The number of bytes, the lowest first. -/
def value (bytes : List UInt8) : Nat := Nat.ofDigits 256 (bytes.map UInt8.toNat)

@[simp] theorem value_nil : value [] = 0 := rfl

@[simp] theorem value_cons (x : UInt8) (l : List UInt8) : value (x :: l) = x.toNat + 256 * value l := by
  simp [value, Nat.ofDigits_cons]

theorem value_append (l l' : List UInt8) : value (l ++ l') = value l + 256 ^ l.length * value l' := by
  simp [value, Nat.ofDigits_append]

theorem value_lt (l : List UInt8) : value l < 256 ^ l.length := by
  rw [← List.length_map (f := UInt8.toNat)]
  exact Nat.ofDigits_lt_base_pow_length (by decide) fun x hx => by
    obtain ⟨y, -, rfl⟩ := List.mem_map.mp hx
    exact y.toNat_lt

/-- The lowest bytes are the remainder. -/
theorem value_take (l : List UInt8) (n : Nat) : value (l.take n) = value l % 256 ^ n := by
  rcases Nat.le_total l.length n with hle | hge
  · rw [List.take_of_length_le hle, Nat.mod_eq_of_lt ((value_lt l).trans_le (Nat.pow_le_pow_right (by decide) hle))]
  · have hlt := value_lt (l.take n)
    have hsplit := value_append (l.take n) (l.drop n)
    rw [List.length_take, Nat.min_eq_left hge] at hlt hsplit
    rw [List.take_append_drop] at hsplit
    rw [hsplit, Nat.add_mul_mod_self_left, Nat.mod_eq_of_lt hlt]

theorem value_replicate_zero (n : Nat) : value (List.replicate n 0) = 0 := by
  rw [value, List.map_replicate]
  exact Nat.ofDigits_replicate_zero

/-- Zeros at the high end add nothing. -/
theorem value_append_zeros {l zeros : List UInt8} (h : ∀ x ∈ zeros, (x == 0) = true) :
    value (l ++ zeros) = value l := by
  have hzeros : zeros = List.replicate zeros.length 0 := List.eq_replicate_iff.mpr ⟨rfl, fun x hx => by simpa using h x hx⟩
  rw [value_append, hzeros, value_replicate_zero, Nat.mul_zero, Nat.add_zero]

/-- The bytes of an integer are those of its remainder. -/
theorem value_digits (v : Int) (n : Nat) :
    (value ((List.range n).map fun i => UInt8.ofNat (v / 256 ^ i % 256).toNat) : Int) = v % 256 ^ n := by
  induction n with
  | zero => simp
  | succ n ih =>
    have hdigit : ((UInt8.ofNat (v / 256 ^ n % 256).toNat).toNat : Int) = v / 256 ^ n % 256 := by
      rw [UInt8.toNat_ofNat']
      omega
    have hpos : (0 : Int) < 256 ^ n := Int.pow_pos (by decide)
    have hlow := Int.emod_nonneg v hpos.ne'
    have hhigh := Int.emod_lt_of_pos v hpos
    have hsplit : v % 256 ^ n + 256 ^ n * (v / 256 ^ n % 256) + 256 ^ (n + 1) * (v / 256 ^ n / 256) = v := by
      rw [pow_succ, mul_assoc, add_assoc, ← mul_add, Int.emod_add_mul_ediv, Int.emod_add_mul_ediv]
    have hmod : v % 256 ^ (n + 1) = v % 256 ^ n + 256 ^ n * (v / 256 ^ n % 256) := by
      rw [← congrArg (· % (256 : Int) ^ (n + 1)) hsplit]
      rw [Int.add_mul_emod_self_left, Int.emod_eq_of_lt]
      · nlinarith [Int.emod_nonneg (v / 256 ^ n) (by decide : (256 : Int) ≠ 0)]
      · rw [pow_succ]
        nlinarith [Int.emod_lt_of_pos (v / 256 ^ n) (by decide : (0 : Int) < 256)]
    rw [List.range_succ, List.map_append, value_append, Nat.cast_add, ih, List.length_map, List.length_range, hmod]
    simp only [List.map_cons, List.map_nil, value_cons, value_nil, Nat.mul_zero, Nat.add_zero, Nat.cast_mul, hdigit,
      Nat.cast_pow, Nat.cast_ofNat]

/-! ## Signed numbers -/

/-- The number of bytes in two's complement, the lowest first. -/
def signedValue (bytes : List UInt8) : Int := (value bytes : Int).bmod (256 ^ bytes.length)

/-- The value of the bytes of an integer, as a number with or without a sign. -/
theorem signedValue_digits (v : Int) (n : Nat) :
    signedValue ((List.range n).map fun i => UInt8.ofNat (v / 256 ^ i % 256).toNat) = v.bmod (256 ^ n) := by
  rw [signedValue, value_digits, List.length_map, List.length_range]
  exact_mod_cast Int.emod_bmod v (256 ^ n)

end Bytes
