/-
A row of digits read in base ten and in base eight, the lowest digit first.

The two readings agree below eight only (`eight_eq_ten_iff`). The reading in
base eight is not a tenth, a hundredth and so on of the other either, as far
as nineteen digits go (`eight_ne_tenth`): one zero at the end makes it eight
times as large, and the digits that remain do not make up for that exactly.
-/
import Mathlib.Data.Nat.Digits.Lemmas
import Mathlib.Tactic.Linarith

namespace Radix

open Nat

theorem eight_le_ten (l : List Nat) : ofDigits 8 l ≤ ofDigits 10 l := ofDigits_monotone l (by decide)

/-- The readings agree exactly below eight. -/
theorem eight_eq_ten_iff {l : List Nat} (hl : ∀ d ∈ l, d < 8) : ofDigits 8 l = ofDigits 10 l ↔ ofDigits 10 l < 8 := by
  cases l with
  | nil => simp
  | cons d l =>
    have hd := hl d (List.mem_cons_self ..)
    have hle := eight_le_ten l
    simp only [ofDigits_cons]
    omega

/-- A number with `m + 1` digits is not more than `(10 / 8) ^ m` times its
reading in base eight. -/
theorem ten_mul_le {m : Nat} : ∀ {l : List Nat}, ofDigits 10 l < 10 ^ (m + 1) →
    ofDigits 10 l * 8 ^ m ≤ ofDigits 8 l * 10 ^ m := by
  induction m with
  | zero =>
    intro l h
    cases l with
    | nil => simp
    | cons d l =>
      simp only [ofDigits_cons] at h ⊢
      omega
  | succ m ih =>
    intro l h
    cases l with
    | nil => simp
    | cons d l =>
      have htail : ofDigits 10 l < 10 ^ (m + 1) := by
        rw [ofDigits_cons, Nat.pow_succ] at h
        omega
      have hrest := ih htail
      have hpow : 8 ^ (m + 1) ≤ 10 ^ (m + 1) := Nat.pow_le_pow_left (by decide) _
      calc ofDigits 10 (d :: l) * 8 ^ (m + 1)
          = d * 8 ^ (m + 1) + 80 * (ofDigits 10 l * 8 ^ m) := by rw [ofDigits_cons, Nat.pow_succ]; ring
        _ ≤ d * 10 ^ (m + 1) + 80 * (ofDigits 8 l * 10 ^ m) :=
            Nat.add_le_add (Nat.mul_le_mul_left d hpow) (Nat.mul_le_mul_left 80 hrest)
        _ = ofDigits 8 (d :: l) * 10 ^ (m + 1) := by rw [ofDigits_cons, Nat.pow_succ]; ring

/-- Behind `i` digits of eleven or more. One more digit is at most seven, and
weighs less in base ten as long as `10 ^ i ≤ 8 ^ (i + 1)`. -/
theorem eight_pow_mul_lt {j : Nat} : ∀ {i : Nat} {l : List Nat}, i + j = 10 → (∀ d ∈ l, d < 8) → 10 ^ j ≤ ofDigits 10 l →
    9 * (8 ^ (i + 1) * (ofDigits 8 l + 1)) < 9 * (10 ^ i * ofDigits 10 l) + 7 * 10 ^ i + 65 := by
  induction j with
  | zero =>
    intro i l hi hl h
    obtain rfl : i = 10 := hi
    have hle := eight_le_ten l
    omega
  | succ j ih =>
    intro i l hi hl h
    have hbase : 10 ^ i ≤ 8 ^ (i + 1) := by
      have hi' : i ≤ 9 := by omega
      interval_cases i <;> decide
    cases l with
    | nil =>
      have := Nat.one_le_pow (j + 1) 10 (by decide)
      rw [ofDigits_nil] at h
      omega
    | cons d l =>
      have hd := hl d (List.mem_cons_self ..)
      have htail : 10 ^ j ≤ ofDigits 10 l := by
        rw [ofDigits_cons, Nat.pow_succ] at h
        omega
      have hrest := ih (i := i + 1) (by omega) (fun x hx => hl x (List.mem_cons_of_mem d hx)) htail
      obtain ⟨e, he⟩ : ∃ e, d = 7 - e ∧ e ≤ 7 := ⟨7 - d, by omega⟩
      have h8 : 8 ^ (i + 1) * d + 8 ^ (i + 1) * e = 8 ^ (i + 1) * 7 := by
        rw [← Nat.mul_add]
        exact congrArg _ (by omega)
      have h10 : 10 ^ i * d + 10 ^ i * e = 10 ^ i * 7 := by
        rw [← Nat.mul_add]
        exact congrArg _ (by omega)
      have hless : 10 ^ i * e ≤ 8 ^ (i + 1) * e := Nat.mul_le_mul_right e hbase
      rw [Nat.pow_succ 8 (i + 1), Nat.pow_succ 10 i] at hrest
      rw [ofDigits_cons, ofDigits_cons]
      linarith

/-- From eleven digits on a number is more than eight times its reading in
base eight. -/
theorem eight_mul_lt {l : List Nat} (hl : ∀ d ∈ l, d < 8) (h : 10 ^ 10 ≤ ofDigits 10 l) :
    8 * ofDigits 8 l < ofDigits 10 l := by
  have := eight_pow_mul_lt (i := 0) rfl hl h
  omega

/-- Zeros at the end can be cut off. -/
theorem exists_of_mul_pow {n k : Nat} : ∀ {l : List Nat}, (∀ d ∈ l, d < 8) → ofDigits 10 l = n * 10 ^ k →
    ∃ l', (∀ d ∈ l', d < 8) ∧ ofDigits 10 l' = n ∧ ofDigits 8 l = 8 ^ k * ofDigits 8 l' := by
  induction k with
  | zero => exact fun {l} hl h => ⟨l, hl, by simpa using h, by simp⟩
  | succ k ih =>
    intro l hl h
    cases l with
    | nil =>
      have hn : n = 0 := by simpa using h.symm
      exact ⟨[], by simp, by simp [hn], by simp⟩
    | cons d l =>
      have hd := hl d (List.mem_cons_self ..)
      rw [ofDigits_cons, Nat.pow_succ, ← Nat.mul_assoc] at h
      obtain ⟨l', hl', hn, h8⟩ := ih (l := l) (fun x hx => hl x (List.mem_cons_of_mem d hx)) (by omega)
      refine ⟨l', hl', hn, ?_⟩
      have hzero : d = 0 := by omega
      rw [ofDigits_cons, h8, hzero, Nat.pow_succ]
      ring

/-- **The reading in base eight** of a number with zeros at the end is not the
number without them. -/
theorem eight_ne_tenth {l : List Nat} {n k : Nat} (hl : ∀ d ∈ l, d < 8) (hk : 0 < k) (h : ofDigits 10 l = n * 10 ^ k)
    (hn : n < 10 ^ 19) (heq : ofDigits 8 l = n) : n = 0 := by
  obtain ⟨l', hl', hn', h8⟩ := exists_of_mul_pow hl h
  rw [heq] at h8
  subst hn'
  obtain ⟨k, rfl⟩ : ∃ j, k = j + 1 := ⟨k - 1, by omega⟩
  cases k with
  | zero =>
    rcases Nat.lt_or_ge (ofDigits 10 l') (10 ^ 10) with hlt | hge
    · have := ten_mul_le (m := 9) hlt
      omega
    · have := eight_mul_lt hl' hge
      omega
  | succ k =>
    have hle := ten_mul_le (m := 18) hn
    have hpow : 64 * ofDigits 8 l' ≤ ofDigits 10 l' := by
      rw [h8, Nat.pow_succ, Nat.pow_succ]
      have := Nat.one_le_pow k 8 (by decide)
      nlinarith [Nat.zero_le (ofDigits 8 l')]
    omega

end Radix
