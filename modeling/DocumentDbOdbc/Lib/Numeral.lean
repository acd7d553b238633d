/-
Decimal numerals as ASCII bytes: `decimal n` prints, `numeralValue` reads,
and reading what was printed gives the number back
(`numeralValue_decimal`).
-/
import Mathlib.Data.Nat.Log
import Mathlib.Tactic.Ring
import Mathlib.Tactic.IntervalCases

namespace Numeral

/-- `'0' .. '9'`. -/
def isDigit (c : UInt8) : Bool := 48 ≤ c && c ≤ 57

/-- The byte of a digit below ten. -/
def digit (d : Nat) : UInt8 := UInt8.ofNat (48 + d)

/-- The decimal numeral of `n`, no leading zeros. -/
def decimal (n : Nat) : List UInt8 := (Nat.toDigits 10 n).map fun c => UInt8.ofNat c.toNat

/-- The number a row of digits denotes. -/
def numeralValue (s : List UInt8) : Nat := s.foldl (fun n c => 10 * n + (c.toNat - 48)) 0

theorem digit_eq_digitChar {d : Nat} (h : d < 10) : UInt8.ofNat (Nat.digitChar d).toNat = digit d := by
  interval_cases d <;> rfl

theorem toNat_digit {d : Nat} (h : d < 10) : (digit d).toNat = 48 + d := by
  simp only [digit, UInt8.toNat_ofNat']
  omega

theorem isDigit_digit {d : Nat} (h : d < 10) : isDigit (digit d) = true := by
  interval_cases d <;> decide

theorem decimal_of_lt {n : Nat} (h : n < 10) : decimal n = [digit n] := by
  simp [decimal, Nat.toDigits_of_lt_base h, digit_eq_digitChar h]

/-- From ten on, the last digit follows the numeral of the tens. -/
theorem decimal_of_ge {n : Nat} (h : 10 ≤ n) : decimal n = decimal (n / 10) ++ [digit (n % 10)] := by
  have hd : n % 10 < 10 := Nat.mod_lt n (by decide)
  rw [decimal, Nat.toDigits_eq_if (by decide), if_neg (by omega), List.map_append, List.map_singleton,
    digit_eq_digitChar hd, decimal]

/-- What holds of every digit and is kept by appending one holds of every
numeral. -/
theorem decimal_induction {P : Nat → List UInt8 → Prop} (one : ∀ d, d < 10 → P d [digit d])
    (snoc : ∀ n s, 10 ≤ n → P (n / 10) s → P n (s ++ [digit (n % 10)])) (n : Nat) : P n (decimal n) := by
  induction n using Nat.strongRecOn with
  | ind n ih =>
    rcases Nat.lt_or_ge n 10 with h | h
    · rw [decimal_of_lt h]
      exact one n h
    · rw [decimal_of_ge h]
      exact snoc n _ h (ih (n / 10) (by omega))

theorem decimal_ne_nil (n : Nat) : decimal n ≠ [] :=
  decimal_induction (P := fun _ s => s ≠ []) (fun _ _ => by simp) (fun _ _ _ _ => by simp) n

theorem isDigit_of_mem_decimal (n : Nat) : ∀ c ∈ decimal n, isDigit c = true := by
  refine decimal_induction (P := fun _ s => ∀ c ∈ s, isDigit c = true) ?_ ?_ n
  · intro d hd c hc
    rw [List.mem_singleton] at hc
    exact hc ▸ isDigit_digit hd
  · intro n s _ ih c hc
    rw [List.mem_append, List.mem_singleton] at hc
    rcases hc with hc | rfl
    · exact ih c hc
    · exact isDigit_digit (Nat.mod_lt n (by decide))

/-- **Reading a printed numeral.** -/
theorem numeralValue_decimal (n : Nat) : numeralValue (decimal n) = n := by
  refine decimal_induction (P := fun n s => numeralValue s = n) ?_ ?_ n
  · intro d hd
    simp [numeralValue, toNat_digit hd]
  · intro n s _ ih
    have hd := toNat_digit (Nat.mod_lt n (by decide : 0 < 10))
    simp only [numeralValue, List.foldl_append, List.foldl_cons, List.foldl_nil] at ih ⊢
    omega

/-- No zero in front. -/
theorem head_decimal {n : Nat} (h : 0 < n) : (decimal n).head? ≠ some 48 := by
  refine (decimal_induction (P := fun n s => s ≠ [] ∧ (0 < n → s.head? ≠ some 48)) ?_ ?_ n).2 h
  · intro d hd
    refine ⟨List.cons_ne_nil _ _, fun hpos h0 => ?_⟩
    have hzero : (digit d).toNat = 48 := congrArg UInt8.toNat (Option.some.inj h0)
    rw [toNat_digit hd] at hzero
    omega
  · rintro n (_ | ⟨c, s⟩) hn ⟨hne, ih⟩
    · exact absurd rfl hne
    · exact ⟨List.cons_ne_nil _ _, fun _ => ih (by omega)⟩

/-- The number of digits. -/
theorem length_decimal (n : Nat) : (decimal n).length = Nat.log 10 n + 1 := by
  refine decimal_induction (P := fun n s => s.length = Nat.log 10 n + 1) ?_ ?_ n
  · intro d hd
    rw [Nat.log_of_lt hd]
    rfl
  · intro n s hn ih
    rw [List.length_append, ih, Nat.log_of_one_lt_of_le (by decide) hn]
    rfl

theorem length_decimal_le {k n : Nat} (h : n < 10 ^ (k + 1)) : (decimal n).length ≤ k + 1 := by
  rw [length_decimal]
  exact Nat.log_lt_of_lt_pow' k.succ_ne_zero h

/-! ## Rows of digits -/

theorem numeralValue_concat (s : List UInt8) (c : UInt8) :
    numeralValue (s ++ [c]) = 10 * numeralValue s + (c.toNat - 48) := by
  simp [numeralValue]

theorem numeralValue_append (s t : List UInt8) :
    numeralValue (s ++ t) = numeralValue s * 10 ^ t.length + numeralValue t := by
  induction t generalizing s with
  | nil => simp [numeralValue]
  | cons c t ih =>
    have hcons : numeralValue (c :: t) = (c.toNat - 48) * 10 ^ t.length + numeralValue t := by
      have := ih [c]
      simpa [numeralValue] using this
    rw [List.append_cons, ih, numeralValue_concat, hcons, List.length_cons, Nat.pow_succ]
    ring

theorem numeralValue_cons (c : UInt8) (s : List UInt8) :
    numeralValue (c :: s) = (c.toNat - 48) * 10 ^ s.length + numeralValue s := by
  have h := numeralValue_append [c] s
  simpa [numeralValue] using h

/-- The last `k` digits of a number, leading zeros included. -/
def lastDigits : Nat → Nat → List UInt8
  | 0, _ => []
  | k + 1, n => lastDigits k (n / 10) ++ [digit (n % 10)]

/-- A numeral is a shorter one followed by the last digits. -/
theorem decimal_eq_append_lastDigits {a : Nat} (ha : 0 < a) : ∀ {k r : Nat}, r < 10 ^ k →
    decimal (a * 10 ^ k + r) = decimal a ++ lastDigits k r := by
  intro k
  induction k with
  | zero =>
    intro r hr
    have hr : r = 0 := by simpa using hr
    simp [hr, lastDigits]
  | succ k ih =>
    intro r hr
    have hge : 10 ≤ a * 10 ^ (k + 1) + r := by
      have : 1 * (1 * 10) ≤ a * (10 ^ k * 10) :=
        Nat.mul_le_mul ha (Nat.mul_le_mul (Nat.one_le_pow k 10 (by decide)) (Nat.le_refl 10))
      rw [Nat.pow_succ]
      omega
    have hdiv : (a * 10 ^ (k + 1) + r) / 10 = a * 10 ^ k + r / 10 := by
      rw [Nat.pow_succ, ← Nat.mul_assoc]
      omega
    have hmod : (a * 10 ^ (k + 1) + r) % 10 = r % 10 := by
      rw [Nat.pow_succ, ← Nat.mul_assoc]
      omega
    rw [decimal_of_ge hge, hdiv, hmod, ih (by rw [Nat.pow_succ] at hr; omega), lastDigits, List.append_assoc]

theorem lastDigits_zero (k : Nat) : lastDigits k 0 = List.replicate k 48 := by
  induction k with
  | zero => rfl
  | succ k ih =>
    rw [lastDigits, Nat.zero_div, ih, List.replicate_succ']
    rfl

/-- A numeral padded with zeros to a width is the row of its last digits. -/
theorem pad_decimal {k : Nat} : ∀ {r : Nat}, r < 10 ^ (k + 1) →
    List.replicate (k + 1 - (decimal r).length) 48 ++ decimal r = lastDigits (k + 1) r := by
  induction k with
  | zero =>
    intro r hr
    have hr : r < 10 := by simpa using hr
    rw [decimal_of_lt hr]
    simp [lastDigits, Nat.mod_eq_of_lt hr]
  | succ k ih =>
    intro r hr
    rcases Nat.lt_or_ge r 10 with h | h
    · rw [decimal_of_lt h, lastDigits, Nat.div_eq_of_lt h, lastDigits_zero, Nat.mod_eq_of_lt h]
      rfl
    · rw [decimal_of_ge h, lastDigits, ← ih (by rw [Nat.pow_succ] at hr; omega), List.length_append,
        List.length_singleton, Nat.add_sub_add_right, List.append_assoc]

end Numeral
