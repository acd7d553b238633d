/-
`common::BigInteger` against its decimal numerals.

`write_eq` is what `operator<<` prints, `readDigits_spec` what `operator>>`
makes of digits. The digits of a part are counted in an `int32_t`, zeros
included: a number whose numeral has more than `INT32_MAX` zeros in a row is
printed, but not read back.
-/
import DocumentDbOdbc.BigIntegerText

namespace DocumentDbOdbc

open Limbs Numeral

namespace BigInteger

/-! ## Printing -/

theorem length_le_two {l : MagArray} (h : Normalized l) (hv : value l < 2 ^ 64) : l.length ≤ 2 := by
  by_contra hlen
  have hle := pow_length_le_value h (fun hnil => by rw [hnil] at hlen; exact hlen (Nat.zero_le 2))
  have : (2 ^ 32) ^ 2 ≤ (2 ^ 32) ^ (l.length - 1) := Nat.pow_le_pow_right (by decide) (by omega)
  omega

/-- The two words `ToInt64` puts together. -/
theorem toNat_toInt64_eq (b : BigInteger) :
    b.toInt64.toUInt64.toNat = (b.getMagInt 0).toNat + 2 ^ 32 * (b.getMagInt 1).toNat := by
  have hlow := (b.getMagInt 0).toNat_lt
  have hhigh := (b.getMagInt 1).toNat_lt
  rw [toInt64, UInt64.toUInt64_toInt64, UInt64.toNat_or, UInt64.toNat_shiftLeft, UInt32.toNat_toUInt64,
    UInt32.toNat_toUInt64]
  change ((b.getMagInt 1).toNat <<< 32 % 2 ^ 64) ||| (b.getMagInt 0).toNat = _
  rw [Nat.shiftLeft_eq, Nat.mod_eq_of_lt (by omega), Nat.mul_comm, ← Nat.two_pow_add_eq_or_of_lt hlow, Nat.add_comm]

/-- The low 64 bits of a positive number of at most 64 bits. -/
theorem toNat_toInt64 {b : BigInteger} (hs : b.sign = 1) (hn : Normalized b.mag) (hv : value b.mag < 2 ^ 64) :
    b.toInt64.toUInt64.toNat = value b.mag := by
  have hlimb : ∀ n, b.getMagInt n = b.mag.getD n 0 := by
    intro n
    unfold getMagInt
    rw [List.getD_eq_getElem?_getD]
    cases b.mag[n]? with
    | none => rw [hs]; rfl
    | some x =>
      have hx := toNat_ofInt x.toNat
      rw [Int.emod_eq_of_lt (Int.natCast_nonneg _) (by exact_mod_cast x.toNat_lt)] at hx
      dsimp only
      rw [hs, Int.one_mul]
      exact UInt32.toNat_inj.mp (Int.natCast_inj.mp hx)
  have hlen := length_le_two hn hv
  rw [toNat_toInt64_eq, hlimb, hlimb]
  generalize b.mag = mag at hlen ⊢
  obtain _ | ⟨x, _ | ⟨y, _ | ⟨z, l⟩⟩⟩ := mag
  · rfl
  · simp
  · simp
  · simp at hlen

theorem maxUintTenPower_spec : maxUintTenPower.Canonical ∧ maxUintTenPower.mag.length = 2 ∧
    value maxUintTenPower.mag = 10 ^ 19 :=
  ⟨canonical_assignUint64 _, by decide, value_assignUint64 _⟩

/-- Division by the power of ten that makes the blocks. -/
theorem divide_maxUintTenPower (outside : Outside) {b : BigInteger} (h : b.Canonical) :
    ∃ d, divide outside b maxUintTenPower false = .ok d ∧ Divided b maxUintTenPower d := by
  obtain ⟨hc, hlen, -⟩ := maxUintTenPower_spec
  obtain ⟨d, hd, hpath⟩ := divide_path outside false h.normalized hc.normalized
    (fun hnil => by rw [hnil] at hlen; cases hlen)
  exact ⟨d, hd, divide_two_limbs h.normal hc.normal hlen hpath⟩

theorem innerBlock_eq {val : UInt64} (h : val.toNat < 10 ^ 19) : innerBlock val = lastDigits 19 val.toNat :=
  pad_decimal (k := 18) h

/-- A block is the remainder, and each division takes a limb off. -/
theorem splitBlocks_spec (outside : Outside) : ∀ {fuel : Nat} (left : BigInteger) (val : UInt64) (vals : List UInt64),
    left.Canonical → left.sign = 1 → left.mag.length ≤ fuel → val.toNat < 10 ^ 19 →
    ∃ blocks, splitBlocks outside fuel left (val :: vals) = some blocks ∧
      blocksText blocks = decimal (value left.mag * 10 ^ 19 + val.toNat) ++ vals.flatMap innerBlock := by
  intro fuel
  induction fuel with
  | zero =>
    intro left val vals hc hs hlen hval
    have hnil : left.mag = [] := List.length_eq_zero_iff.mp (Nat.le_zero.mp hlen)
    exact ⟨val :: vals, by simp [splitBlocks, isZero, hnil], by simp [blocksText, hnil]⟩
  | succ fuel ih =>
    intro left val vals hc hs hlen hval
    unfold splitBlocks
    split
    · next hz =>
      exact ⟨val :: vals, rfl, by simp [blocksText, isZero_iff.mp hz]⟩
    · next hz =>
      have hne : left.mag ≠ [] := fun hnil => hz (isZero_iff.mpr hnil)
      obtain ⟨hten, -, htenv⟩ := maxUintTenPower_spec
      obtain ⟨d, hd, hdiv⟩ := divide_maxUintTenPower outside hc
      obtain ⟨hress, hrems⟩ := hdiv.positive hs (sign_assignUint64 _)
      have hq := hdiv.quotient
      have hr := hdiv.remainder
      rw [htenv] at hq hr
      have hrlt : value left.mag % 10 ^ 19 < 10 ^ 19 := Nat.mod_lt _ (by decide)
      have hblock := toNat_toInt64 hrems hdiv.rem (by rw [hr]; omega)
      have hlen' : d.res.mag.length ≤ fuel := by
        by_contra hlong
        have hle := pow_length_le_value hdiv.res (fun hnil => by rw [hnil] at hlong; exact hlong (Nat.zero_le _))
        have hlt := value_lt left.mag
        have hpow : (2 ^ 32) ^ left.mag.length ≤ 2 ^ 32 * (2 ^ 32) ^ (d.res.mag.length - 1) := by
          rw [← Nat.pow_succ']
          exact Nat.pow_le_pow_right (by decide) (by omega)
        rw [hq] at hle
        have := Nat.div_mul_le_self (value left.mag) (10 ^ 19)
        generalize (2 ^ 32) ^ (d.res.mag.length - 1) = B at *
        omega
      obtain ⟨blocks, hsplit, htext⟩ := ih d.res d.rem.toInt64.toUInt64 (val :: vals)
        ⟨.inl hress, hdiv.res, fun _ => hress⟩ hress hlen' (by rw [hblock, hr]; exact hrlt)
      rw [hd]
      refine ⟨blocks, hsplit, htext.trans ?_⟩
      have hpos : 0 < value left.mag := hc.normalized.value_pos hne
      rw [hblock, hq, hr, Nat.div_add_mod' (value left.mag) (10 ^ 19), List.flatMap_cons, innerBlock_eq hval,
        decimal_eq_append_lastDigits hpos hval, List.append_assoc]

theorem makePositive_spec {b : BigInteger} (h : b.sign = 1 ∨ b.sign = -1) :
    b.makePositive.sign = 1 ∧ b.makePositive.mag = b.mag := by
  unfold makePositive
  rcases h with h | h <;> simp [h]

/-- **What is printed**: the numeral, at any number of limbs. -/
theorem write_eq (outside : Outside) {v : BigInteger} (h : v.Canonical) : write outside v = some (intText v.toInt) := by
  unfold write
  split
  · next hz =>
    rw [toInt, isZero_iff.mp hz]
    simp only [value_nil, Nat.cast_zero, Int.mul_zero]
    rfl
  · next hz =>
    have hpos : 0 < value v.mag := Nat.pos_of_ne_zero fun h0 =>
      hz (isZero_iff.mpr ((value_eq_zero_iff h.normalized).mp h0))
    obtain ⟨-, -, htenv⟩ := maxUintTenPower_spec
    obtain ⟨d, hd, hdiv⟩ := divide_maxUintTenPower outside h
    obtain ⟨hrs, hrm⟩ := makePositive_spec hdiv.signs.2
    obtain ⟨hqs, hqm⟩ := makePositive_spec hdiv.signs.1
    have hq := hdiv.quotient
    have hr := hdiv.remainder
    rw [htenv] at hq hr
    have hrlt : value v.mag % 10 ^ 19 < 10 ^ 19 := Nat.mod_lt _ (by decide)
    have hblock := toNat_toInt64 hrs (hrm ▸ hdiv.rem) (by rw [hrm, hr]; omega)
    rw [hrm, hr] at hblock
    obtain ⟨blocks, hsplit, htext⟩ := splitBlocks_spec outside d.res.makePositive
      d.rem.makePositive.toInt64.toUInt64 [] ⟨.inl hqs, hqm ▸ hdiv.res, fun _ => hqs⟩ hqs (Nat.le_refl _)
      (by rw [hblock]; exact hrlt)
    rw [hqm, hq, hblock, Nat.div_add_mod' (value v.mag) (10 ^ 19), List.flatMap_nil, List.append_nil] at htext
    rw [hd]
    simp only [hqm] at hsplit ⊢
    rw [hsplit]
    dsimp only
    rw [htext, intText, toInt]
    rcases h.sign with hs | hs
    · rw [hs, Int.one_mul, if_neg (by decide), if_neg (by omega), Int.natAbs_natCast, List.nil_append]
    · rw [hs, if_pos (by decide), if_pos (by omega), Int.natAbs_mul, Int.natAbs_natCast]
      simp only [Int.natAbs_neg, Int.natAbs_one, Nat.one_mul]
      rfl

/-! ## Reading -/

/-- The parts stand for the number `n`, read from at most `k` digits. -/
structure Reads (n k : Nat) (p : Parts) : Prop where
  canonical : p.val.Canonical
  sign : p.val.sign = 1
  nonneg : 0 ≤ p.partDigits.toInt
  digits : p.partDigits.toInt.toNat ≤ k
  part : p.part.toNat < 10 ^ p.partDigits.toInt.toNat
  value : value p.val.mag * 10 ^ p.partDigits.toInt.toNat + p.part.toNat = n

theorem reads_start : Reads 0 0 .start := by
  refine ⟨canonical_zero, rfl, ?_, ?_, ?_, ?_⟩ <;> decide

/-- A canonical positive number times a power of ten, plus a word. -/
theorem addPart_spec (outside : Outside) {p : Parts} (hc : p.val.Canonical) (hs : p.val.sign = 1) :
    (p.addPart outside).Canonical ∧ (p.addPart outside).sign = 1 ∧
      value (p.addPart outside).mag =
        value p.val.mag * value (getPowerOfTen outside p.partDigits).mag + p.part.toNat := by
  obtain ⟨hten, htens⟩ := canonical_getPowerOfTen outside p.partDigits
  have hmul := canonical_multiply hc hten (fun _ => hs.trans htens.symm)
  obtain ⟨hadd, hsign, hv⟩ := add_spec hmul p.part
  refine ⟨hadd, hsign.trans ?_, ?_⟩
  · show p.val.sign * (getPowerOfTen outside p.partDigits).sign = 1
    rw [hs, htens]
    rfl
  · rw [Parts.addPart, hv, value_multiply]

theorem Reads.addPart (outside : Outside) {n k : Nat} {p : Parts} (h : Reads n k p) :
    (p.addPart outside).Canonical ∧ (p.addPart outside).sign = 1 ∧ Limbs.value (p.addPart outside).mag = n := by
  obtain ⟨hc, hs, hv⟩ := addPart_spec outside h.canonical h.sign
  have hten := (value_getPowerOfTen outside (Int32.le_iff_toInt_le.mpr h.nonneg)).2
  exact ⟨hc, hs, by rw [hv, hten, h.value]⟩

theorem toNat_digitWord {c : UInt8} (h : isDigit c = true) : (c.toUInt64 - 48).toNat = c.toNat - 48 := by
  rw [isDigit, Bool.and_eq_true, decide_eq_true_eq, decide_eq_true_eq, UInt8.le_iff_toNat_le] at h
  have hle : (48 : UInt64) ≤ c.toUInt64 := by
    rw [UInt64.le_iff_toNat_le, UInt8.toNat_toUInt64]
    exact h.1
  rw [UInt64.toNat_sub_of_le _ _ hle, UInt8.toNat_toUInt64]
  rfl

theorem Reads.push {n k : Nat} {p : Parts} {c : UInt8} (h : Reads n k p) (hpart : p.part.toNat < 10 ^ 18)
    (hc : isDigit c = true) (hk : k + 1 < 2 ^ 31) : Reads (10 * n + (c.toNat - 48)) (k + 1) (p.push c) := by
  have hdigits := h.digits
  have hnonneg := h.nonneg
  have hd : c.toNat - 48 ≤ 9 := by
    rw [isDigit, Bool.and_eq_true, decide_eq_true_eq, decide_eq_true_eq, UInt8.le_iff_toNat_le,
      UInt8.le_iff_toNat_le] at hc
    have : c.toNat ≤ 57 := hc.2
    omega
  have hcount : (p.partDigits + 1).toInt = p.partDigits.toInt + 1 := by
    rw [Int32.toInt_add]
    exact Int.bmod_eq_of_le (by simp; omega) (by simp; omega)
  have hcount' : (p.partDigits + 1).toInt.toNat = p.partDigits.toInt.toNat + 1 := by omega
  have hpart' : (p.part * 10 + (c.toUInt64 - 48)).toNat = p.part.toNat * 10 + (c.toNat - 48) := by
    rw [UInt64.toNat_add, UInt64.toNat_mul, toNat_digitWord hc]
    change (p.part.toNat * 10 % 2 ^ 64 + (c.toNat - 48)) % 2 ^ 64 = _
    omega
  refine ⟨h.canonical, h.sign, ?_, ?_, ?_, ?_⟩
  · show 0 ≤ (p.partDigits + 1).toInt
    omega
  · show (p.partDigits + 1).toInt.toNat ≤ k + 1
    omega
  · show (p.part * 10 + (c.toUInt64 - 48)).toNat < 10 ^ (p.partDigits + 1).toInt.toNat
    have hlt := h.part
    rw [hpart', hcount', Nat.pow_succ]
    omega
  · show Limbs.value p.val.mag * 10 ^ (p.partDigits + 1).toInt.toNat +
      (p.part * 10 + (c.toUInt64 - 48)).toNat = 10 * n + (c.toNat - 48)
    rw [hpart', hcount', ← h.value, Nat.pow_succ]
    ring

theorem Reads.flush (outside : Outside) {n k : Nat} {p : Parts} (h : Reads n k p) :
    Reads n k (p.flush outside) ∧ (p.flush outside).part.toNat < 10 ^ 18 := by
  unfold Parts.flush
  split
  · obtain ⟨hc, hs, hv⟩ := h.addPart outside
    refine ⟨⟨hc, hs, (by decide : 0 ≤ (0 : Int32).toInt), Nat.zero_le _,
      (by decide : (0 : UInt64).toNat < 10 ^ (0 : Int32).toInt.toNat), ?_⟩,
      (by decide : (0 : UInt64).toNat < 10 ^ 18)⟩
    rw [hv]
    exact Nat.mul_one n
  · next hlt =>
    refine ⟨h, ?_⟩
    rw [ge_iff_le, UInt64.not_le, UInt64.lt_iff_toNat_lt] at hlt
    exact hlt

theorem Reads.finish (outside : Outside) {n k : Nat} {p : Parts} (h : Reads n k p) :
    (p.finish outside).Canonical ∧ (p.finish outside).sign = 1 ∧ Limbs.value (p.finish outside).mag = n := by
  unfold Parts.finish
  split
  · exact h.addPart outside
  · next hzero =>
    have hpart := h.part
    have hv := h.value
    rw [not_not.mp hzero] at hpart hv
    refine ⟨h.canonical, h.sign, ?_⟩
    change p.part.toNat < 1 at hpart
    change Limbs.value p.val.mag * 1 + p.part.toNat = n at hv
    omega

/-- The loop reads the digits in front. -/
theorem readDigits_spec (outside : Outside) {rest : Str} (hrest : ∀ c ∈ rest.head?, isDigit c = false) :
    ∀ {digits : Str} {n k : Nat} {p : Parts}, Reads n k p → p.part.toNat < 10 ^ 18 →
      (∀ c ∈ digits, isDigit c = true) → k + digits.length < 2 ^ 31 →
      ∃ p', readDigits outside p (digits ++ rest) = (p', rest) ∧
        Reads (n * 10 ^ digits.length + numeralValue digits) (k + digits.length) p' := by
  intro digits
  induction digits with
  | nil =>
    intro n k p h hpart _ hk
    refine ⟨p, ?_, by simpa [numeralValue] using h⟩
    cases rest with
    | nil => rfl
    | cons c rest => simp [readDigits, hrest c (by simp)]
  | cons c digits ih =>
    intro n k p h hpart hdigits hk
    rw [List.length_cons] at hk
    have hc := hdigits c (by simp)
    obtain ⟨hflush, hpart'⟩ := (h.push hpart hc (by omega)).flush outside
    obtain ⟨p', hread, hp'⟩ := ih hflush hpart' (fun d hd => hdigits d (by simp [hd])) (by omega)
    refine ⟨p', by rw [List.cons_append, readDigits, if_pos hc, hread], ?_⟩
    rw [numeralValue_cons, List.length_cons, Nat.pow_succ, show k + (digits.length + 1) = k + 1 + digits.length by omega,
      show n * (10 ^ digits.length * 10) + ((c.toNat - 48) * 10 ^ digits.length + numeralValue digits) =
        (10 * n + (c.toNat - 48)) * 10 ^ digits.length + numeralValue digits by ring]
    exact hp'

/-- The sign a numeral may have in front. -/
inductive NumeralSign where
  | absent
  | plus
  | minus
  deriving DecidableEq, Repr

namespace NumeralSign

def text : NumeralSign → Str
  | absent => []
  | plus => [43]
  | minus => [45]

def factor : NumeralSign → Int
  | minus => -1
  | _ => 1

end NumeralSign

theorem toInt_negate (b : BigInteger) : b.negate.toInt = -b.toInt := by
  unfold negate
  split
  · simp [toInt]
  · next h =>
    have hnil : b.mag = [] := by simpa [isZero] using h
    simp [toInt, hnil]

/-- `operator>>` from the first byte on. -/
theorem read_cons (outside : Outside) {c : UInt8} (hc : isSpace c = false) (rest : Str) :
    read outside (.ofText (c :: rest)) =
      let (p, rest) := readDigits outside .start (if c = 45 ∨ c = 43 then rest else c :: rest)
      (if c = 45 then (p.finish outside).negate else p.finish outside, ⟨rest, rest.isEmpty, false⟩) := by
  have hsentry : (Istream.ofText (c :: rest)).sentry = .ofText (c :: rest) := by
    simp [Istream.sentry, Istream.ofText, Istream.good, hc]
  have hpeek : (Istream.ofText (c :: rest)).peek = (some c, .ofText (c :: rest)) := rfl
  unfold read
  simp only [hsentry, hpeek]
  by_cases h45 : c = 45
  · subst h45
    rfl
  · by_cases h43 : c = 43
    · subst h43
      rfl
    · simp [h45, h43, Istream.ofText]

/-- **What is read**: a numeral with a sign gives its number, up to what stands
behind it. -/
theorem read_spec (outside : Outside) (sign : NumeralSign) {digits : Str} (rest : Str) (hne : digits ≠ [])
    (hdigits : ∀ c ∈ digits, isDigit c = true) (hlen : digits.length < 2 ^ 31)
    (hrest : ∀ c ∈ rest.head?, isDigit c = false) :
    ∃ v, read outside (.ofText (sign.text ++ digits ++ rest)) = (v, ⟨rest, rest.isEmpty, false⟩) ∧
      v.Canonical ∧ v.toInt = sign.factor * numeralValue digits := by
  obtain ⟨p, hread, hp⟩ := readDigits_spec outside hrest reads_start (by decide) hdigits (by simpa using hlen)
  obtain ⟨hc, hs, hv⟩ := hp.finish outside
  rw [Nat.zero_mul, Nat.zero_add] at hv
  have hint : (p.finish outside).toInt = numeralValue digits := by rw [toInt, hs, hv, Int.one_mul]
  cases sign with
  | absent =>
    obtain ⟨c, digits, rfl⟩ := List.exists_cons_of_ne_nil hne
    have hspace := isSpace_of_isDigit (hdigits c (by simp))
    obtain ⟨h45, h43⟩ := not_sign_of_isDigit (hdigits c (by simp))
    refine ⟨p.finish outside, ?_, hc, by rw [hint]; simp [NumeralSign.factor]⟩
    rw [NumeralSign.text, List.nil_append, List.cons_append, read_cons outside hspace, if_neg (by simp [h45, h43]),
      ← List.cons_append, hread]
    simp [h45]
  | plus =>
    refine ⟨p.finish outside, ?_, hc, by rw [hint]; simp [NumeralSign.factor]⟩
    rw [NumeralSign.text, List.append_assoc, List.singleton_append, read_cons outside (by decide), if_pos (.inr rfl), hread]
    rfl
  | minus =>
    refine ⟨(p.finish outside).negate, ?_, canonical_negate hc, by rw [toInt_negate, hint]; simp [NumeralSign.factor]⟩
    rw [NumeralSign.text, List.append_assoc, List.singleton_append, read_cons outside (by decide), if_pos (.inl rfl), hread]
    rfl

/-- Reading keeps the canonical form, whatever the counter of digits says. -/
theorem canonical_readDigits (outside : Outside) : ∀ (s : Str) {p : Parts}, p.val.Canonical → p.val.sign = 1 →
    (readDigits outside p s).1.val.Canonical ∧ (readDigits outside p s).1.val.sign = 1 := by
  intro s
  induction s with
  | nil => exact fun hc hs => ⟨hc, hs⟩
  | cons c s ih =>
    intro p hc hs
    unfold readDigits
    split
    · have hadd := addPart_spec outside (p := p.push c) hc hs
      unfold Parts.flush
      split
      · exact ih hadd.1 hadd.2.1
      · exact ih hc hs
    · exact ⟨hc, hs⟩

theorem canonical_read (outside : Outside) (is : Istream) : (read outside is).1.Canonical := by
  have hzero : (assignInt64 0).Canonical := canonical_zero
  unfold read
  dsimp only
  split
  · exact hzero
  · split
    · exact hzero
    · have hp := fun s => canonical_readDigits outside s (p := .start) hzero rfl
      have hfinish : ∀ s, ((readDigits outside .start s).1.finish outside).Canonical := by
        intro s
        unfold Parts.finish
        split
        · exact (addPart_spec outside (hp s).1 (hp s).2).1
        · exact (hp s).1
      split
      · exact canonical_negate (hfinish _)
      · exact hfinish _

/-! ## Round trip -/

theorem intText_eq (n : Int) : ∃ sign : NumeralSign, (sign = .absent ∨ sign = .minus) ∧
    intText n = sign.text ++ decimal n.natAbs ∧ sign.factor * n.natAbs = n := by
  by_cases h : n < 0
  · refine ⟨.minus, .inr rfl, by rw [intText, if_pos h]; rfl, ?_⟩
    simp only [NumeralSign.factor]
    omega
  · refine ⟨.absent, .inl rfl, by rw [intText, if_neg h]; rfl, ?_⟩
    simp only [NumeralSign.factor]
    omega

/-- **The text of a number.** At any number of limbs the numeral is printed,
with a minus sign for a negative number and no zero in front; it is read back
when it has fewer than `2 ^ 31` digits, as is every numeral of that length,
with or without a sign and with any number of zeros in front. -/
theorem text_exact (outside : Outside) :
    (∀ v : BigInteger, v.Canonical → write outside v = some (intText v.toInt) ∧
      (0 < v.toInt.natAbs → (decimal v.toInt.natAbs).head? ≠ some 48)) ∧
    (∀ v : BigInteger, v.Canonical → (decimal v.toInt.natAbs).length < 2 ^ 31 →
      assignString outside (intText v.toInt) = v) ∧
    ∀ (sign : NumeralSign) (digits : Str), digits ≠ [] → (∀ c ∈ digits, isDigit c = true) →
      digits.length < 2 ^ 31 →
      (assignString outside (sign.text ++ digits)).Canonical ∧
        (assignString outside (sign.text ++ digits)).toInt = sign.factor * numeralValue digits := by
  refine ⟨fun v h => ⟨write_eq outside h, fun hpos => head_decimal hpos⟩, ?_, ?_⟩
  · intro v h hlen
    obtain ⟨sign, -, htext, hfactor⟩ := intText_eq v.toInt
    obtain ⟨w, hread, hc, hw⟩ := read_spec outside sign [] (decimal_ne_nil _) (isDigit_of_mem_decimal _) hlen
      (by simp)
    rw [List.append_nil, ← htext] at hread
    rw [numeralValue_decimal, hfactor] at hw
    rw [assignString, hread]
    exact hc.ext h hw
  · intro sign digits hne hdigits hlen
    obtain ⟨w, hread, hc, hw⟩ := read_spec outside sign [] hne hdigits hlen (by simp)
    rw [List.append_nil] at hread
    rw [assignString, hread]
    exact ⟨hc, hw⟩

/-- `-42` is printed and read, and `-042` is read. -/
theorem text_exact_minus :
    write .zeros (assignInt64 (-42)) = some (intText (assignInt64 (-42)).toInt) ∧
      assignString .zeros (intText (assignInt64 (-42)).toInt) = assignInt64 (-42) ∧
      (assignString .zeros (NumeralSign.text .minus ++ ascii "042")).toInt = -1 * numeralValue (ascii "042") :=
  ⟨((text_exact .zeros).1 _ (canonical_assignInt64 _)).1,
    (text_exact .zeros).2.1 _ (canonical_assignInt64 _) (by decide),
    ((text_exact .zeros).2.2 .minus (ascii "042") (by decide) (List.all_eq_true.mp (by decide)) (by decide)).2⟩

/-! ## Zeros that are not counted -/

theorem decimal_pow_ten (n : Nat) : decimal (10 ^ n) = 49 :: List.replicate n 48 := by
  have h := decimal_eq_append_lastDigits (a := 1) (by decide) (k := n) (r := 0) (Nat.pow_pos (by decide))
  rw [Nat.one_mul, Nat.add_zero, lastDigits_zero] at h
  exact h

theorem intText_pow_ten {v : Int} {n : Nat} (hv : v = 10 ^ n) : intText v = 49 :: List.replicate n 48 := by
  have hnat : v = ((10 ^ n : Nat) : Int) := by rw [hv]; push_cast; rfl
  rw [hnat, intText, if_neg (Int.not_lt.mpr (Int.natCast_nonneg _)), Int.natAbs_natCast, decimal_pow_ten]

/-- Zeros that do not fill the part are counted. -/
theorem readDigits_zeros (outside : Outside) (val : BigInteger) (rest : Str) : ∀ {n part : Nat} {k : Int32},
    part * 10 ^ n < 10 ^ 18 →
    readDigits outside ⟨val, UInt64.ofNat part, k⟩ (List.replicate n 48 ++ rest) =
      readDigits outside ⟨val, UInt64.ofNat (part * 10 ^ n), k + Int32.ofNat n⟩ rest := by
  intro n
  induction n with
  | zero => intro part k _; simp
  | succ n ih =>
    intro part k hlt
    rw [Nat.pow_succ', ← Nat.mul_assoc] at hlt ⊢
    have hpart : part * 10 < 10 ^ 18 := (Nat.le_mul_of_pos_right _ (Nat.pow_pos (by decide))).trans_lt hlt
    have hpush : (⟨val, UInt64.ofNat part, k⟩ : Parts).push 48 = ⟨val, UInt64.ofNat (part * 10), k + 1⟩ := by
      rw [Parts.push, UInt64.ofNat_mul]
      exact congrArg (fun x => (⟨val, x, k + 1⟩ : Parts)) (UInt64.add_zero _)
    have hflush : (⟨val, UInt64.ofNat (part * 10), k + 1⟩ : Parts).flush outside =
        ⟨val, UInt64.ofNat (part * 10), k + 1⟩ := by
      refine if_neg ?_
      rw [ge_iff_le, UInt64.not_le, UInt64.lt_iff_toNat_lt, UInt64.toNat_ofNat', Nat.mod_eq_of_lt (by omega)]
      exact hpart
    rw [List.replicate_succ, List.cons_append, readDigits, if_pos (by decide), hpush, hflush, ih hlt, Int32.ofNat_add,
      Int32.add_assoc, Int32.add_comm (Int32.ofNat n)]
    rfl

/-- The first part that is added is the number. -/
theorem flush_first (outside : Outside) {part : UInt64} (h : part ≥ 1000000000000000000) (k : Int32) :
    (⟨assignInt64 0, part, k⟩ : Parts).flush outside = ⟨assignUint64 part, 0, 0⟩ := by
  obtain ⟨hc, hs, hv⟩ := addPart_spec outside (p := ⟨assignInt64 0, part, k⟩) canonical_zero rfl
  have hadd : (⟨assignInt64 0, part, k⟩ : Parts).addPart outside = assignUint64 part := by
    refine hc.ext (canonical_assignUint64 part) ?_
    rw [toInt, toInt, hs, sign_assignUint64, hv, value_assignUint64]
    simp [zero]
  rw [Parts.flush, if_pos h, hadd]

/-- A power of ten whose zeros behind the first 19 digits overflow the counter
is not read back. -/
theorem not_read_back (outside : Outside) {v : BigInteger} {n : Nat} (hv : v.toInt = 10 ^ (18 + n))
    (hn : 20 ≤ n) (hcount : Int32.ofNat n < 0) : assignString outside (intText v.toInt) ≠ v := by
  have htext : intText v.toInt = 49 :: (List.replicate 17 48 ++ 48 :: (List.replicate n 48 ++ [])) := by
    rw [intText_pow_ten hv, ← List.replicate_append_replicate, List.append_nil]
    rfl
  -- Nineteen digits fill the first part, and the zeros behind it stay in the second.
  have hone : (Parts.start.push 49).flush outside = ⟨assignInt64 0, UInt64.ofNat 1, 1⟩ := rfl
  have hpush : (⟨assignInt64 0, UInt64.ofNat (1 * 10 ^ 17), 1 + Int32.ofNat 17⟩ : Parts).push 48 =
      ⟨assignInt64 0, 1000000000000000000, 19⟩ := by decide
  have hread : readDigits outside .start (intText v.toInt) =
      (⟨assignUint64 1000000000000000000, UInt64.ofNat (0 * 10 ^ n), 0 + Int32.ofNat n⟩, []) := by
    rw [htext, readDigits, if_pos (by decide), hone, readDigits_zeros outside _ _ (by decide), readDigits,
      if_pos (by decide), hpush, flush_first outside (by decide)]
    exact (@readDigits_zeros outside _ [] _ 0 _ (by rw [Nat.zero_mul]; decide)).trans rfl
  have hcountne : (0 : Int32) + Int32.ofNat n ≠ 0 := by
    rw [Int32.zero_add]
    intro h0
    rw [h0] at hcount
    exact absurd hcount (by decide)
  obtain ⟨-, hs, hvalue⟩ := addPart_spec outside (p := ⟨assignUint64 1000000000000000000, UInt64.ofNat (0 * 10 ^ n),
    0 + Int32.ofNat n⟩) (canonical_assignUint64 1000000000000000000) (sign_assignUint64 1000000000000000000)
  have hfinish : assignString outside (intText v.toInt) =
      Parts.addPart outside ⟨assignUint64 1000000000000000000, UInt64.ofNat (0 * 10 ^ n), 0 + Int32.ofNat n⟩ := by
    have hcons : intText v.toInt = 49 :: (List.replicate 17 48 ++ 48 :: (List.replicate n 48 ++ [])) := htext
    rw [assignString, hcons, read_cons outside (by decide), if_neg (by decide), ← hcons, hread]
    simp only [Parts.finish, if_pos hcountne]
    rfl
  intro he
  have hvalue' : value v.mag = 10 ^ 18 * value (getPowerOfTen outside (0 + Int32.ofNat n)).mag := by
    rw [← he, hfinish, hvalue, value_assignUint64, Nat.zero_mul]
    rfl
  have hneg : (0 : Int32) + Int32.ofNat n < 20 := by
    rw [Int32.zero_add]
    rw [Int32.lt_iff_toInt_lt] at hcount ⊢
    exact hcount.trans (by decide)
  rw [getPowerOfTen, if_pos hneg, value_assignUint64] at hvalue'
  have hword := (tenPowerU64 outside (0 + Int32.ofNat n)).toNat_lt
  have hsign : v.sign = 1 := by rw [← he, hfinish, hs]
  rw [toInt, hsign, Int.one_mul] at hv
  have hv' : value v.mag = 10 ^ 18 * 10 ^ n := by rw [← Nat.pow_add]; exact_mod_cast hv
  have hlarge : 10 ^ 20 ≤ 10 ^ n := Nat.pow_le_pow_right (by decide) hn
  rw [hv'] at hvalue'
  have := Nat.eq_of_mul_eq_mul_left (by decide) hvalue'
  omega

/-- `10 ^ 2147483666`, from `Pow` and `Multiply`. -/
def longNumber : BigInteger := ((assignInt64 10).pow 2147483647).multiply maxUintTenPower

theorem longNumber_spec : longNumber.Canonical ∧ longNumber.toInt = 10 ^ (18 + 2147483648) := by
  obtain ⟨hnonzero, hpow⟩ := pow_ten_spec (k := 2147483647) (by decide)
  obtain ⟨hten, hlen, htenv⟩ := maxUintTenPower_spec
  have hsum : (2147483647 : Int32).toInt.toNat + 19 = 18 + 2147483648 := by decide
  have htenint : maxUintTenPower.toInt = 10 ^ 19 := by
    rw [toInt, htenv]
    rfl
  refine ⟨canonical_multiply hnonzero.1 hten fun hz => ?_, ?_⟩
  · rcases hz with hz | hz
    · exact absurd hz hnonzero.2
    · rw [hz] at hlen
      cases hlen
  · rw [longNumber, toInt_multiply, hpow, htenint, ← pow_add, hsum]

/-- **It is printed and not read back**, whatever stands around the table of
powers of ten. -/
theorem longNumber_not_read_back : longNumber.Canonical ∧ ∀ outside : Outside, ∃ text,
    write outside longNumber = some text ∧ assignString outside text ≠ longNumber := by
  obtain ⟨hc, hv⟩ := longNumber_spec
  exact ⟨hc, fun outside => ⟨_, write_eq outside hc, not_read_back outside hv (by decide) (by decide)⟩⟩

end BigInteger

end DocumentDbOdbc
