/-
The integers that texts denote, and the numbers read off their beginnings.

`Denotes` is the decimal reading of a whole text, with a fraction and an
exponent as a `decimal128` prints it. `std::stoll` reads the literal of C that
a text begins with (`literal`), which is decimal only without a leading zero
and stops before a point and an exponent. `literal_eq_iff` says for which
numerals the two agree.
-/
import DocumentDbOdbc.DecimalTextFacts
import DocumentDbOdbc.Platform
import DocumentDbOdbc.Lib.Radix

namespace DocumentDbOdbc

open Numeral BigInteger

/-! ## Decimal numerals -/

namespace DecimalNumeral

variable {d d' : DecimalNumeral} {n n' : Int} {s : Str}

/-- The exponent is as a `decimal128` prints it: `E`, a sign and digits. -/
def Printed (d : DecimalNumeral) : Prop := ∀ e ∈ d.exponent, e.1 = 69 ∧ e.2.1 ≠ .absent

/-- The text is a numeral of the integer. -/
def Denotes (s : Str) (n : Int) : Prop := ∃ d : DecimalNumeral, d.WellFormed ∧ d.Printed ∧ d.text = s ∧ d.value = n

/-- What follows the digits before the point. -/
def tail (d : DecimalNumeral) : Str := fractionText d.fraction ++ exponentText d.exponent

theorem head_tail (hd : d.WellFormed) : ∀ c ∈ d.tail.head?, c = 46 ∨ c = 69 ∨ c = 101 := by
  intro c hc
  unfold tail at hc
  cases hf : d.fraction with
  | some f =>
    rw [hf] at hc
    exact .inl (Option.some.inj hc).symm
  | none =>
    cases he : d.exponent with
    | none => simp [hf, he, fractionText, exponentText] at hc
    | some e =>
      have hmark := (hd.exponent e he).1
      rw [hf, he] at hc
      obtain rfl : e.1 = c := by simpa [fractionText, exponentText] using hc
      exact .inr hmark.symm

/-- A numeral begins with a sign or a digit. -/
theorem head_text (hd : d.WellFormed) :
    ∃ c t, d.digits = c :: t ∧ isDigit c = true ∧ d.text = d.sign.text ++ c :: (t ++ d.tail) := by
  obtain ⟨c, t, hct⟩ := List.exists_cons_of_ne_nil hd.digits.1
  refine ⟨c, t, hct, hd.digits.2 c (by simp [hct]), ?_⟩
  rw [text, hct, List.append_assoc, List.cons_append]
  rfl

/-- The digits before the point end where they seem to. -/
theorem takeWhile_digits (hd : d.WellFormed) {p : UInt8 → Bool} (hp : ∀ c, p c = true → isDigit c = true) :
    (d.digits ++ d.tail).takeWhile p = d.digits.takeWhile p := by
  refine Separated.takeWhile_append_of_stop fun c hc => ?_
  rw [Bool.eq_false_iff]
  intro h
  have hdigit := hp c h
  rcases head_tail hd c hc with rfl | rfl | rfl <;> exact absurd hdigit (by decide)

/-- A sign is told from what begins with a digit. -/
theorem signed_injective {sign sign' : NumeralSign} {t t' : Str} (ht : ∃ c r, t = c :: r ∧ isDigit c = true)
    (ht' : ∃ c r, t' = c :: r ∧ isDigit c = true) (h : sign.text ++ t = sign'.text ++ t') : sign = sign' ∧ t = t' := by
  obtain ⟨c, r, rfl, hc⟩ := ht
  obtain ⟨c', r', rfl, hc'⟩ := ht'
  obtain ⟨h45, h43⟩ := not_sign_of_isDigit hc
  obtain ⟨h45', h43'⟩ := not_sign_of_isDigit hc'
  cases sign <;> cases sign' <;> grind [NumeralSign.text]

theorem row_head {r : Str} (hr : Row r) (t : Str) : ∃ c u, r ++ t = c :: u ∧ isDigit c = true := by
  obtain ⟨c, u, rfl⟩ := List.exists_cons_of_ne_nil hr.1
  exact ⟨c, u ++ t, rfl, hr.2 c (List.mem_cons_self ..)⟩

/-- Rows of digits are told apart from what ends them. -/
theorem row_injective {r r' t t' : Str} (hr : ∀ c ∈ r, isDigit c = true) (hr' : ∀ c ∈ r', isDigit c = true)
    (ht : ∀ c ∈ t.head?, isDigit c = false) (ht' : ∀ c ∈ t'.head?, isDigit c = false) (h : r ++ t = r' ++ t') :
    r = r' ∧ t = t' := by
  have hrow := Separated.takeWhile_row hr ht
  rw [h, Separated.takeWhile_row hr' ht'] at hrow
  subst hrow
  exact ⟨rfl, List.append_cancel_left h⟩

theorem exponentText_injective (hd : d.WellFormed) (hd' : d'.WellFormed)
    (h : exponentText d.exponent = exponentText d'.exponent) : d.exponent = d'.exponent := by
  cases he : d.exponent with
  | none =>
    cases he' : d'.exponent with
    | none => rfl
    | some e' =>
      rw [he, he'] at h
      cases h
  | some e =>
    cases he' : d'.exponent with
    | none =>
      rw [he, he'] at h
      cases h
    | some e' =>
      have hrow := row_head (hd.exponent e he).2 []
      have hrow' := row_head (hd'.exponent e' he').2 []
      rw [List.append_nil] at hrow hrow'
      obtain ⟨mark, sign, digits⟩ := e
      obtain ⟨mark', sign', digits'⟩ := e'
      rw [he, he'] at h
      obtain ⟨hmark, hsigned⟩ := List.cons_eq_cons.mp h
      obtain ⟨hsign, hdigits⟩ := signed_injective hrow hrow' hsigned
      dsimp only at hdigits
      rw [hmark, hsign, hdigits]

/-- **A text is one numeral at most.** -/
theorem text_injective (hd : d.WellFormed) (hd' : d'.WellFormed) (h : d.text = d'.text) : d = d' := by
  have hnot : ∀ {d : DecimalNumeral}, d.WellFormed → ∀ c ∈ d.tail.head?, isDigit c = false := by
    intro d hd c hc
    rcases head_tail hd c hc with rfl | rfl | rfl <;> decide
  have hnot' : ∀ {d : DecimalNumeral}, d.WellFormed → ∀ c ∈ (exponentText d.exponent).head?, isDigit c = false ∧ c ≠ 46 :=
    fun hd => Common.Decimal.head_exponentText hd
  rw [text, text, List.append_assoc, List.append_assoc] at h
  obtain ⟨hsign, h⟩ := signed_injective (row_head hd.digits _) (row_head hd'.digits _) h
  obtain ⟨hdigits, h⟩ := row_injective hd.digits.2 hd'.digits.2 (hnot hd) (hnot hd') h
  unfold tail at h
  have hrest : d.fraction = d'.fraction ∧ d.exponent = d'.exponent := by
    cases hf : d.fraction with
    | none =>
      cases hf' : d'.fraction with
      | none =>
        rw [hf, hf'] at h
        exact ⟨rfl, exponentText_injective hd hd' h⟩
      | some f' =>
        rw [hf, hf'] at h
        exact absurd rfl (hnot' hd 46 (by rw [show exponentText d.exponent = _ from h]; rfl)).2
    | some f =>
      cases hf' : d'.fraction with
      | none =>
        rw [hf, hf'] at h
        exact absurd rfl (hnot' hd' 46 (by rw [show exponentText d'.exponent = _ from h.symm]; rfl)).2
      | some f' =>
        rw [hf, hf', fractionText, fractionText, List.cons_append, List.cons_append, List.cons_eq_cons] at h
        obtain ⟨hrow, hexponent⟩ := row_injective (hd.fraction f hf).2 (hd'.fraction f' hf').2
          (fun c hc => (hnot' hd c hc).1) (fun c hc => (hnot' hd' c hc).1) h.2
        exact ⟨congrArg some hrow, exponentText_injective hd hd' hexponent⟩
  obtain ⟨sign, digits, fraction, exponent⟩ := d
  obtain ⟨sign', digits', fraction', exponent'⟩ := d'
  simp_all

theorem Denotes.unique (h : Denotes s n) (h' : Denotes s n') : n = n' := by
  obtain ⟨d, hd, -, htext, hvalue⟩ := h
  obtain ⟨d', hd', -, htext', hvalue'⟩ := h'
  obtain rfl := text_injective hd hd' (htext.trans htext'.symm)
  exact_mod_cast hvalue.symm.trans hvalue'

/-- Its characters are of ASCII. -/
theorem isPlainChar_text (hd : d.WellFormed) : ∀ c ∈ d.text, isPlainChar c = true := by
  have hrow : ∀ {s : Str}, Row s → ∀ c ∈ s, isPlainChar c = true := fun hs c hc => isPlainChar_of_isDigit (hs.2 c hc)
  have hsign : ∀ sign : NumeralSign, ∀ c ∈ sign.text, isPlainChar c = true := fun sign => by
    cases sign <;> simp [NumeralSign.text, isPlainChar]
  intro c hc
  rw [text, List.mem_append, List.mem_append, List.mem_append] at hc
  rcases hc with (hc | hc) | hc | hc
  · exact hsign _ c hc
  · exact hrow hd.digits c hc
  · cases hf : d.fraction with
    | none => simp [hf, fractionText] at hc
    | some f =>
      rw [hf, fractionText, List.mem_cons] at hc
      rcases hc with rfl | hc
      · decide
      · exact hrow (hd.fraction f hf) c hc
  · cases he : d.exponent with
    | none => simp [he, exponentText] at hc
    | some e =>
      obtain ⟨mark, sign, digits⟩ := e
      obtain ⟨hmark, hdigits⟩ := hd.exponent _ he
      dsimp only at hmark hdigits
      rw [he, exponentText, List.mem_cons, List.mem_append] at hc
      rcases hc with rfl | hc | hc
      · rcases hmark with rfl | rfl <;> decide
      · exact hsign sign c hc
      · exact hrow hdigits c hc

end DecimalNumeral

/-! ## Literals -/

/-- The number of a row of digits in a base. -/
def radixValue (base : Nat) (digits : Str) : Nat := digits.foldl (fun n c => n * base + (digitValue c).getD 0) 0

/-- The literal of C a text begins with, of any size. Spaces and a sign may
precede it, anything may follow. -/
def literal (s : Str) : Option Int :=
  let t := (cStr s).dropWhile isSpace
  let negative := t.head? = some 45
  let (base, t) := numeralBase (if negative || t.head? = some 43 then t.tail else t)
  let digits := t.takeWhile (isDigitOf base)
  if digits = [] then none else some (if negative then -radixValue base digits else radixValue base digits)

/-- `std::stoll` reads the literal if it has 64 bits. -/
theorem stoll_eq_some {s : Str} {v : Int} :
    stoll s = some v ↔ literal s = some v ∧ -9223372036854775808 ≤ v ∧ v ≤ 9223372036854775807 := by
  have hbounds : ∀ (p : Prop) [Decidable p] (n : Int),
      (if p ∨ n < -9223372036854775808 ∨ 9223372036854775807 < n then none else some n) = some v ↔
        (if p then none else some n) = some v ∧ -9223372036854775808 ≤ v ∧ v ≤ 9223372036854775807 := by
    intro p _ n
    by_cases hp : p
    · simp [hp]
    · simp only [hp, false_or, if_false, Option.some.injEq]
      split
      · next h => simp only [reduceCtorEq, false_iff]; omega
      · next h => simp only [Option.some.injEq]; omega
  exact hbounds _ _

theorem digitValue_of_isDigit {c : UInt8} (h : isDigit c = true) : digitValue c = some (c.toNat - 48) := if_pos h

theorem isDigitOf_of_isDigit {c : UInt8} (h : isDigit c = true) (base : Nat) :
    isDigitOf base c = decide (c.toNat - 48 < base) := by
  rw [isDigitOf, digitValue_of_isDigit h]
  rfl

theorem toNat_le_of_isDigit {c : UInt8} (h : isDigit c = true) : c.toNat ≤ 57 := by
  rw [isDigit, Bool.and_eq_true, decide_eq_true_eq, decide_eq_true_eq, UInt8.le_iff_toNat_le, UInt8.le_iff_toNat_le] at h
  exact h.2

theorem toLowerChar_of_isDigit {c : UInt8} (h : isDigit c = true) : toLowerChar c = c := by
  refine if_neg fun hupper => ?_
  rw [Bool.and_eq_true, decide_eq_true_eq, UInt8.le_iff_toNat_le] at hupper
  have hlow : 65 ≤ c.toNat := hupper.1
  have := toNat_le_of_isDigit h
  omega

/-- A digit of a base up to ten is a decimal digit. -/
theorem isDigit_of_isDigitOf {base : Nat} (hbase : base ≤ 10) {c : UInt8} (h : isDigitOf base c = true) :
    isDigit c = true := by
  unfold isDigitOf digitValue at h
  split at h
  · assumption
  split at h
  · next hlower =>
    rw [Bool.and_eq_true, decide_eq_true_eq, decide_eq_true_eq, UInt8.le_iff_toNat_le] at hlower
    have hlow : 97 ≤ (toLowerChar c).toNat := hlower.1
    rw [Option.any_some, decide_eq_true_eq] at h
    omega
  · cases h

/-- The digits of a row as numbers, the lowest first. -/
def digitsOf (s : Str) : List Nat := (s.map fun c => c.toNat - 48).reverse

theorem numeralValue_eq (s : Str) : numeralValue s = Nat.ofDigits 10 (digitsOf s) := by
  rw [digitsOf, Nat.ofDigits_eq_foldr, List.foldr_reverse, List.foldl_map, numeralValue]
  exact List.foldl_ext _ _ _ fun n c _ => Nat.add_comm _ _

theorem numeralValue_lt {s : Str} (hs : ∀ c ∈ s, isDigit c = true) : numeralValue s < 10 ^ s.length := by
  have hlen : (digitsOf s).length = s.length := by simp [digitsOf]
  rw [numeralValue_eq, ← hlen]
  refine Nat.ofDigits_lt_base_pow_length (by decide) fun d hd => ?_
  obtain ⟨c, hc, rfl⟩ := List.mem_map.mp (List.mem_reverse.mp hd)
  have := toNat_le_of_isDigit (hs c hc)
  omega

theorem radixValue_eq {s : Str} (hs : ∀ c ∈ s, isDigit c = true) (base : Nat) :
    radixValue base s = Nat.ofDigits base (digitsOf s) := by
  rw [digitsOf, Nat.ofDigits_eq_foldr, List.foldr_reverse, List.foldl_map, radixValue]
  refine List.foldl_ext _ _ _ fun n c hc => ?_
  rw [digitValue_of_isDigit (hs c hc), Option.getD_some, Nat.mul_comm, Nat.add_comm]
  rfl

/-- The literal at the beginning of a row of digits: octal behind a zero. -/
def leadingLiteral (digits : Str) : Nat :=
  if digits.head? = some 48 then radixValue 8 (digits.takeWhile (isDigitOf 8)) else numeralValue digits

theorem numeralBase_zero {t : Str} (h : ∀ x ∈ t.head?, toLowerChar x ≠ 120) : numeralBase (48 :: t) = (8, 48 :: t) := by
  unfold numeralBase
  split
  · next x d s heq =>
    obtain ⟨-, rfl⟩ := List.cons_eq_cons.mp heq
    rw [if_neg (by simp [h x rfl])]
  · next heq =>
    obtain ⟨-, rfl⟩ := List.cons_eq_cons.mp heq
    rfl
  · next hne => exact absurd rfl (hne t)

theorem numeralBase_of_ne {c : UInt8} (h : c ≠ 48) (t : Str) : numeralBase (c :: t) = (10, c :: t) := by
  unfold numeralBase
  split
  · next heq => exact absurd (List.cons_eq_cons.mp heq).1 h
  · next heq => exact absurd (List.cons_eq_cons.mp heq).1 h
  · rfl

/-- **The literal of a numeral** is that of its digits before the point. -/
theorem literal_text {d : DecimalNumeral} (hd : d.WellFormed) :
    literal d.text = some (d.sign.factor * leadingLiteral d.digits) := by
  obtain ⟨c, t, hct, hc, htext⟩ := DecimalNumeral.head_text hd
  obtain ⟨h45, h43⟩ := not_sign_of_isDigit hc
  have hspace : d.text.dropWhile isSpace = d.text := by
    rw [htext]
    cases d.sign with
    | absent => simp [NumeralSign.text, isSpace_of_isDigit hc]
    | plus => rfl
    | minus => rfl
  have hbody : c :: (t ++ d.tail) = d.digits ++ d.tail := by rw [hct, List.cons_append]
  have hread : ∀ base ≤ 10, (c :: (t ++ d.tail)).takeWhile (isDigitOf base) = d.digits.takeWhile (isDigitOf base) :=
    fun base hbase => by rw [hbody, DecimalNumeral.takeWhile_digits hd fun c => isDigit_of_isDigitOf hbase]
  have hnotx : ∀ x ∈ (t ++ d.tail).head?, toLowerChar x ≠ 120 := by
    intro x hx
    rw [List.head?_append, Option.mem_def, Option.or_eq_some_iff] at hx
    rcases hx with hx | ⟨-, hx⟩
    · have hdigit := hd.digits.2 x (by rw [hct]; exact List.mem_cons_of_mem c (List.mem_of_mem_head? hx))
      rw [toLowerChar_of_isDigit hdigit]
      rintro rfl
      exact absurd hdigit (by decide)
    · rcases DecimalNumeral.head_tail hd x hx with rfl | rfl | rfl <;> decide
  have hbase : numeralBase (c :: (t ++ d.tail)) = (if c = 48 then 8 else 10, c :: (t ++ d.tail)) := by
    split
    · next h => rw [h, numeralBase_zero hnotx]
    · next h => rw [numeralBase_of_ne h]
  have hdigits : d.digits.takeWhile (isDigitOf (if c = 48 then 8 else 10)) ≠ [] ∧
      radixValue (if c = 48 then 8 else 10) (d.digits.takeWhile (isDigitOf (if c = 48 then 8 else 10))) =
        leadingLiteral d.digits := by
    unfold leadingLiteral
    have hhead : d.digits.head? = some c := by rw [hct]; rfl
    rw [hhead]
    by_cases h : c = 48
    · rw [if_pos h, if_pos (congrArg some h)]
      refine ⟨?_, rfl⟩
      rw [hct, h]
      exact List.cons_ne_nil _ _
    · have hall : d.digits.takeWhile (isDigitOf 10) = d.digits := List.takeWhile_eq_self_iff.mpr fun x hx => by
        have := toNat_le_of_isDigit (hd.digits.2 x hx)
        rw [isDigitOf_of_isDigit (hd.digits.2 x hx), decide_eq_true_eq]
        omega
      rw [if_neg h, if_neg (fun heq => h (Option.some.inj heq)), hall, radixValue_eq hd.digits.2, numeralValue_eq]
      exact ⟨hd.digits.1, rfl⟩
  have hsize : (if c = 48 then 8 else 10) ≤ 10 := by split <;> decide
  unfold literal
  rw [cStr_plain (DecimalNumeral.isPlainChar_text hd), hspace, htext]
  cases d.sign with
  | absent =>
    simp only [NumeralSign.text, NumeralSign.factor, List.nil_append, List.head?_cons, Option.some.injEq, h45, h43,
      decide_false, Bool.or_false, Bool.false_eq_true, if_false, hbase, hread _ hsize, hdigits.1, hdigits.2, Int.one_mul]
  | plus =>
    simp only [NumeralSign.text, NumeralSign.factor, List.singleton_append, List.head?_cons, List.tail_cons,
      Option.some.injEq, show (43 : UInt8) ≠ 45 by decide, decide_false, decide_true, Bool.or_true, if_true,
      if_false, hbase, hread _ hsize, hdigits.1, hdigits.2, Int.one_mul]
  | minus =>
    simp only [NumeralSign.text, NumeralSign.factor, List.singleton_append, List.head?_cons, List.tail_cons,
      decide_true, Bool.true_or, if_true, hbase, hread _ hsize, hdigits.1, hdigits.2, if_false, Int.neg_one_mul]

/-! ## Where the literal is the number -/

theorem octal_of_takeWhile {s : Str} (hs : ∀ c ∈ s, isDigit c = true) :
    ∀ d ∈ digitsOf (s.takeWhile (isDigitOf 8)), d < 8 := by
  intro d hd
  obtain ⟨c, hc, rfl⟩ := List.mem_map.mp (List.mem_reverse.mp hd)
  have hoctal := List.mem_takeWhile_imp hc
  rw [isDigitOf_of_isDigit (hs c ((List.takeWhile_sublist _).subset hc))] at hoctal
  exact of_decide_eq_true hoctal

/-- A row of digits with one that is not octal exceeds what is read before it
by as many places as follow. -/
theorem le_numeralValue_of_dropWhile {s : Str} (hs : ∀ c ∈ s, isDigit c = true) {c : UInt8} {t : Str}
    (h : s.dropWhile (isDigitOf 8) = c :: t) :
    ∃ a, numeralValue s = (10 * numeralValue (s.takeWhile (isDigitOf 8)) + 8 + a) * 10 ^ t.length + numeralValue t ∧
      a < 2 ∧ numeralValue t < 10 ^ t.length := by
  have hsplit : s = s.takeWhile (isDigitOf 8) ++ c :: t := by rw [← h, List.takeWhile_append_dropWhile]
  have hc : isDigit c = true := hs c (by rw [hsplit]; simp)
  have hnot : ¬ isDigitOf 8 c = true := by
    have := List.head?_dropWhile_not (isDigitOf 8) s
    rw [h] at this
    simpa using this
  rw [isDigitOf_of_isDigit hc, decide_eq_true_eq] at hnot
  have hle := toNat_le_of_isDigit hc
  have ht : ∀ x ∈ t, isDigit x = true := fun x hx => hs x (by rw [hsplit]; simp [hx])
  refine ⟨c.toNat - 48 - 8, ?_, by omega, numeralValue_lt ht⟩
  conv_lhs => rw [hsplit]
  rw [numeralValue_append, numeralValue_cons, List.length_cons, Nat.pow_succ,
    show 10 * numeralValue (s.takeWhile (isDigitOf 8)) + 8 + (c.toNat - 48 - 8) =
      10 * numeralValue (s.takeWhile (isDigitOf 8)) + (c.toNat - 48) by omega]
  ring

/-- The literal before the point is a number that is not less than the digits,
or a tenth, a hundredth and so on of them, only where it is the digits
themselves; and behind a zero, only below eight. -/
theorem leadingLiteral_eq_iff {s : Str} (hs : ∀ c ∈ s, isDigit c = true) {n : Nat} (hn : n < 10 ^ 19)
    (h : numeralValue s ≤ n ∨ ∃ k, 0 < k ∧ numeralValue s = n * 10 ^ k) :
    leadingLiteral s = n ↔ n = numeralValue s ∧ (s.head? = some 48 → n < 8) := by
  unfold leadingLiteral
  by_cases hzero : s.head? = some 48
  swap
  · rw [if_neg hzero]
    exact ⟨fun heq => ⟨heq.symm, fun h0 => absurd h0 hzero⟩, fun heq => heq.1.symm⟩
  have hprefix : ∀ c ∈ s.takeWhile (isDigitOf 8), isDigit c = true := fun c hc => hs c ((List.takeWhile_sublist _).subset hc)
  have hoctal := octal_of_takeWhile hs
  rw [if_pos hzero, radixValue_eq hprefix]
  cases hrest : s.dropWhile (isDigitOf 8) with
  | nil =>
    have hall : s.takeWhile (isDigitOf 8) = s := by
      have := List.takeWhile_append_dropWhile (p := isDigitOf 8) (l := s)
      rwa [hrest, List.append_nil] at this
    rw [hall] at hoctal ⊢
    have hsmall := Radix.eight_eq_ten_iff hoctal
    have hle := Radix.eight_le_ten (digitsOf s)
    rw [← numeralValue_eq] at hsmall hle
    constructor
    · intro heq
      rcases h with h | ⟨k, hk, h⟩
      · have hvalue : n = numeralValue s := by omega
        exact ⟨hvalue, fun _ => hvalue ▸ hsmall.mp (heq.trans hvalue)⟩
      · have hn0 := Radix.eight_ne_tenth hoctal hk (numeralValue_eq s ▸ h) hn heq
        rw [hn0, Nat.zero_mul] at h
        exact ⟨by omega, fun _ => by omega⟩
    · rintro ⟨rfl, hlt⟩
      exact hsmall.mpr (hlt hzero)
  | cons c t =>
    obtain ⟨a, hvalue, ha, ht⟩ := le_numeralValue_of_dropWhile hs hrest
    have hle := Radix.eight_le_ten (digitsOf (s.takeWhile (isDigitOf 8)))
    rw [← numeralValue_eq] at hle
    have hpow := Nat.one_le_pow t.length 10 (by decide)
    have hlt : numeralValue (s.takeWhile (isDigitOf 8)) + 8 ≤ numeralValue s := by
      rw [hvalue]
      nlinarith
    constructor
    · intro heq
      rcases h with h | ⟨k, hk, h⟩
      · omega
      rw [hvalue] at h
      rcases Nat.lt_or_ge t.length k with hlong | hshort
      · -- the digit that is not octal is no zero
        obtain ⟨j, rfl⟩ : ∃ j, k = j + (t.length + 1) := ⟨k - (t.length + 1), by omega⟩
        rw [Nat.pow_add, ← Nat.mul_assoc, Nat.pow_succ] at h
        rcases Nat.lt_or_ge (numeralValue (s.takeWhile (isDigitOf 8))) (n * 10 ^ j) with hgt | hge <;> nlinarith
      · have := Nat.mul_le_mul_left n (Nat.pow_le_pow_right (by decide : 0 < 10) hshort)
        nlinarith
    · rintro ⟨rfl, hlt⟩
      have := hlt hzero
      omega

namespace DecimalNumeral

variable {d d' : DecimalNumeral} {n n' : Int} {s : Str}

/-- The digits before the point, whatever follows them. -/
def integerPart (d : DecimalNumeral) : Int := d.sign.factor * numeralValue d.digits

theorem factor_mul_self (sign : NumeralSign) : sign.factor * sign.factor = 1 := by cases sign <;> rfl

/-- An integer is the digits before the point and the fraction, scaled. -/
theorem exists_abs (h : d.value = n) :
    ∃ k : Nat, n = d.sign.factor * k ∧
      (k : Rat) = (numeralValue (d.digits ++ d.fractionDigits) : Nat) * 10 ^ (d.exponentValue - d.fractionDigits.length) := by
  have hfactor : ((d.sign.factor * n : Int) : Rat) =
      (numeralValue (d.digits ++ d.fractionDigits) : Nat) * 10 ^ (d.exponentValue - d.fractionDigits.length) := by
    have hone : (d.sign.factor : Rat) * d.sign.factor = 1 := by exact_mod_cast factor_mul_self d.sign
    rw [Int.cast_mul, ← h, value_eq, mul_assoc, ← mul_assoc, hone, one_mul]
  have hnonneg : 0 ≤ d.sign.factor * n := by
    have : (0 : Rat) ≤ ((d.sign.factor * n : Int) : Rat) := by
      rw [hfactor]
      exact mul_nonneg (Nat.cast_nonneg _) (zpow_nonneg (by norm_num) _)
    exact_mod_cast this
  obtain ⟨k, hk⟩ := Int.eq_ofNat_of_zero_le hnonneg
  refine ⟨k, ?_, ?_⟩
  · rw [← hk, ← Int.mul_assoc, factor_mul_self, Int.one_mul]
  · rw [← hfactor, hk]
    rfl

/-- A numeral of an integer has not less than its digits before the point, or
it has a tenth, a hundredth and so on of them. -/
theorem digits_le_or (hd : d.WellFormed) {k : Nat}
    (h : (k : Rat) = (numeralValue (d.digits ++ d.fractionDigits) : Nat) *
      10 ^ (d.exponentValue - d.fractionDigits.length)) :
    numeralValue d.digits ≤ k ∨ ∃ j, 0 < j ∧ numeralValue d.digits = k * 10 ^ j := by
  have hten : (10 : Rat) ≠ 0 := by norm_num
  have hfraction : numeralValue d.fractionDigits < 10 ^ d.fractionDigits.length := by
    refine numeralValue_lt fun c hc => ?_
    cases hf : d.fraction with
    | none => simp [fractionDigits, hf] at hc
    | some f =>
      rw [fractionDigits, hf] at hc
      exact (hd.fraction f hf).2 c hc
  rcases lt_or_ge d.exponentValue 0 with hneg | hpos
  · obtain ⟨j, hj⟩ := Int.eq_ofNat_of_zero_le (a := -d.exponentValue) (by omega)
    refine .inr ⟨j, by omega, ?_⟩
    have hscaled : k * 10 ^ (j + d.fractionDigits.length) = numeralValue (d.digits ++ d.fractionDigits) := by
      have hexp : d.exponentValue - d.fractionDigits.length = -((j + d.fractionDigits.length : Nat) : Int) := by
        push_cast
        omega
      rw [hexp, zpow_neg, zpow_natCast, eq_mul_inv_iff_mul_eq₀ (pow_ne_zero _ hten)] at h
      exact_mod_cast h
    rw [numeralValue_append, Nat.pow_add, ← Nat.mul_assoc] at hscaled
    rcases Nat.lt_trichotomy (numeralValue d.digits) (k * 10 ^ j) with hlt | heq | hgt
    · nlinarith
    · exact heq
    · nlinarith
  · obtain ⟨j, hj⟩ := Int.eq_ofNat_of_zero_le hpos
    have hscaled : k * 10 ^ d.fractionDigits.length = numeralValue (d.digits ++ d.fractionDigits) * 10 ^ j := by
      rw [hj, zpow_sub₀ hten, zpow_natCast, zpow_natCast, ← mul_div_assoc, eq_div_iff (pow_ne_zero _ hten)] at h
      exact_mod_cast h
    rw [numeralValue_append] at hscaled
    have hle : numeralValue d.digits * 10 ^ d.fractionDigits.length ≤ k * 10 ^ d.fractionDigits.length := by
      rw [hscaled]
      exact (Nat.le_add_right _ _).trans (Nat.le_mul_of_pos_right _ (Nat.pow_pos (by decide)))
    exact .inl (Nat.le_of_mul_le_mul_right hle (Nat.pow_pos (by decide)))

/-- **The literal of a numeral is its integer** if and only if that is what
stands before the point, and below eight if it begins with a zero. -/
theorem literal_eq_iff (hd : d.WellFormed) (h : d.value = n) (hn : n.natAbs < 10 ^ 19) :
    literal d.text = some n ↔ n = d.integerPart ∧ (d.digits.head? = some 48 → n.natAbs < 8) := by
  obtain ⟨k, rfl, hk⟩ := exists_abs h
  have habs : (d.sign.factor * k).natAbs = k := by
    cases d.sign <;> simp [NumeralSign.factor]
  have hcancel : ∀ {a b : Nat}, d.sign.factor * (a : Int) = d.sign.factor * b ↔ a = b := by
    intro a b
    cases d.sign <;> simp [NumeralSign.factor]
  rw [habs] at hn ⊢
  rw [literal_text hd, Option.some.injEq, integerPart, hcancel, hcancel,
    leadingLiteral_eq_iff hd.digits.2 hn (digits_le_or hd hk)]

/-- The text is a numeral of the integer with nothing to scale and no zero in
front of an eight or more. -/
def Plain (s : Str) (n : Int) : Prop :=
  ∃ d : DecimalNumeral, d.WellFormed ∧ d.Printed ∧ d.text = s ∧ d.value = n ∧ n = d.integerPart ∧
    (d.digits.head? = some 48 → n.natAbs < 8)

theorem Plain.denotes (h : Plain s n) : Denotes s n := by
  obtain ⟨d, hd, hprinted, htext, hvalue, -⟩ := h
  exact ⟨d, hd, hprinted, htext, hvalue⟩

/-- A text of an integer begins with the literal of it exactly if it is plain. -/
theorem Denotes.literal_iff (h : Denotes s n) (hn : n.natAbs < 10 ^ 19) : literal s = some n ↔ Plain s n := by
  obtain ⟨d, hd, hprinted, rfl, hvalue⟩ := h
  rw [literal_eq_iff hd hvalue hn]
  constructor
  · exact fun hplain => ⟨d, hd, hprinted, rfl, hvalue, hplain⟩
  · rintro ⟨d', hd', -, htext, -, hplain⟩
    rwa [text_injective hd' hd htext] at hplain

end DecimalNumeral

end DocumentDbOdbc
