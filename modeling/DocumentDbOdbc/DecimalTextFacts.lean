/-
`common::Decimal` against the rational numbers its texts denote.

`DecimalNumeral` is the form of the texts, with the rational number each
denotes. `write_spec` is what `operator<<` prints and `read_spec` what
`operator>>` reads. A magnitude whose text is longer than `INT32_MAX` loses its
digits when it is printed with a point.
-/
import DocumentDbOdbc.DecimalText
import Mathlib.Algebra.Order.Field.Basic
import Mathlib.Data.Rat.Cast.Defs
import Mathlib.Tactic.FieldSimp
import Mathlib.Tactic.NormNum

namespace DocumentDbOdbc

open Limbs Numeral BigInteger

/-- `[sign] digits [. digits] [e|E [sign] digits]`. -/
structure DecimalNumeral where
  sign : NumeralSign
  digits : Str
  fraction : Option Str
  exponent : Option (UInt8 × NumeralSign × Str)

namespace DecimalNumeral

def fractionText : Option Str → Str
  | none => []
  | some f => 46 :: f

def exponentText : Option (UInt8 × NumeralSign × Str) → Str
  | none => []
  | some (e, sign, digits) => e :: (sign.text ++ digits)

def text (n : DecimalNumeral) : Str :=
  n.sign.text ++ n.digits ++ (fractionText n.fraction ++ exponentText n.exponent)

/-- A row of digits that is not empty. -/
def Row (s : Str) : Prop := s ≠ [] ∧ ∀ c ∈ s, isDigit c = true

structure WellFormed (n : DecimalNumeral) : Prop where
  digits : Row n.digits
  fraction : ∀ f ∈ n.fraction, Row f
  exponent : ∀ e ∈ n.exponent, (e.1 = 101 ∨ e.1 = 69) ∧ Row e.2.2

def fractionDigits (n : DecimalNumeral) : Str := n.fraction.getD []

def exponentValue (n : DecimalNumeral) : Int :=
  match n.exponent with
  | none => 0
  | some (_, sign, digits) => sign.factor * numeralValue digits

/-- The rational number a numeral denotes. -/
def value (n : DecimalNumeral) : Rat :=
  n.sign.factor * (numeralValue n.digits + numeralValue n.fractionDigits / 10 ^ n.fractionDigits.length) *
    10 ^ n.exponentValue

/-- It is the number of all digits, scaled. -/
theorem value_eq (n : DecimalNumeral) :
    n.value = n.sign.factor * (numeralValue (n.digits ++ n.fractionDigits) : Nat) *
      10 ^ (n.exponentValue - n.fractionDigits.length) := by
  have hten : (10 : Rat) ≠ 0 := by norm_num
  rw [value, numeralValue_append, zpow_sub₀ hten, zpow_natCast]
  push_cast
  field_simp

end DecimalNumeral

namespace Common.Decimal

/-- The number. -/
def value (d : Decimal) : Rat := d.magnitude.toInt * 10 ^ (-d.scale.toInt)

/-! ## Reading -/

/-- The scale counter after the point and `count - 1` digits. -/
def scaleOf : Option Nat → Int32
  | none => -1
  | some count => Int32.ofNat count

theorem scaleOf_some_nonneg {n : Nat} (h : n < 2 ^ 31) : ¬ scaleOf (some n) < 0 := by
  rw [Int32.lt_iff_toInt_lt, scaleOf, toInt32_ofNat h, Int32.toInt_zero]
  omega

/-- Digits are read into the parts, and counted behind the point. -/
theorem readNumber_digits (outside : Outside) (rest : Str) : ∀ {digits : Str} {n k : Nat} {p : Parts} (count : Option Nat),
    Reads n k p → p.part.toNat < 10 ^ 18 → (∀ c ∈ digits, isDigit c = true) → k + digits.length < 2 ^ 31 →
    (∀ j ∈ count, j + digits.length < 2 ^ 31) →
    ∃ p', readNumber outside p (scaleOf count) (digits ++ rest) =
        readNumber outside p' (scaleOf (count.map (· + digits.length))) rest ∧
      Reads (n * 10 ^ digits.length + numeralValue digits) (k + digits.length) p' ∧ p'.part.toNat < 10 ^ 18 := by
  intro digits
  induction digits with
  | nil =>
    intro n k p count h hpart _ _ _
    refine ⟨p, ?_, by simpa [numeralValue] using h, hpart⟩
    cases count <;> rfl
  | cons c digits ih =>
    intro n k p count h hpart hdigits hk hcount
    rw [List.length_cons] at hk hcount
    have hc := hdigits c (by simp)
    obtain ⟨hflush, hpart'⟩ := (h.push hpart hc (by omega)).flush outside
    obtain ⟨p', hread, hp', hpart''⟩ := ih (count.map (· + 1)) hflush hpart' (fun d hd => hdigits d (by simp [hd]))
      (by omega) (by
        intro j hj
        obtain ⟨i, hi, rfl⟩ := Option.mem_map.mp hj
        have := hcount i hi
        omega)
    have hscale : (if scaleOf count ≥ 0 then scaleOf count + 1 else scaleOf count) = scaleOf (count.map (· + 1)) := by
      cases count with
      | none => rfl
      | some j =>
        have := hcount j rfl
        rw [if_pos (Int32.not_lt.mp (scaleOf_some_nonneg (by omega)))]
        exact (Int32.ofNat_add j 1).symm
    refine ⟨p', ?_, ?_, hpart''⟩
    · rw [List.cons_append, readNumber, if_pos hc, hscale, hread, Option.map_map]
      congr 2
      cases count with
      | none => rfl
      | some j =>
        simp only [Option.map_some, Function.comp_apply, List.length_cons, Option.some.injEq]
        omega
    · rw [numeralValue_cons, List.length_cons, Nat.pow_succ, show k + (digits.length + 1) = k + 1 + digits.length by omega,
        show n * (10 ^ digits.length * 10) + ((c.toNat - 48) * 10 ^ digits.length + numeralValue digits) =
          (10 * n + (c.toNat - 48)) * 10 ^ digits.length + numeralValue digits by ring]
      exact hp'

/-- The loop stops at what is neither a digit nor a point. -/
theorem readNumber_stop {outside : Outside} {p : Parts} {scale : Int32} {rest : Str}
    (hrest : ∀ c ∈ rest.head?, isDigit c = false ∧ c ≠ 46) : readNumber outside p scale rest = (p, scale, rest) := by
  cases rest with
  | nil => rfl
  | cons c rest =>
    obtain ⟨hdigit, hpoint⟩ := hrest c rfl
    simp [readNumber, hdigit, hpoint]

theorem head_exponentText {n : DecimalNumeral} (h : n.WellFormed) :
    ∀ c ∈ (DecimalNumeral.exponentText n.exponent).head?, isDigit c = false ∧ c ≠ 46 := by
  intro c hc
  cases he : n.exponent with
  | none => simp [he, DecimalNumeral.exponentText] at hc
  | some e =>
    have hmark := (h.exponent e he).1
    rw [he] at hc
    obtain rfl : e.1 = c := by simpa [DecimalNumeral.exponentText] using hc
    rcases hmark with hmark | hmark <;> rw [hmark] <;> decide

/-- The digits of a numeral and its point. -/
theorem readNumber_spec (outside : Outside) {n : DecimalNumeral} (h : n.WellFormed)
    (hlen : (n.digits ++ n.fractionDigits).length < 2 ^ 31) :
    ∃ p scale, readNumber outside .start (-1)
        (n.digits ++ (DecimalNumeral.fractionText n.fraction ++ DecimalNumeral.exponentText n.exponent)) =
          (p, scale, DecimalNumeral.exponentText n.exponent) ∧
      (if scale < 0 then 0 else scale - 1) = Int32.ofNat n.fractionDigits.length ∧
      Reads (numeralValue (n.digits ++ n.fractionDigits)) (n.digits ++ n.fractionDigits).length p := by
  have hstop := head_exponentText h
  have hne : 0 < n.digits.length := List.length_pos_iff.mpr h.digits.1
  rw [List.length_append] at hlen
  obtain ⟨p, hread, hp, hpart⟩ := readNumber_digits outside
    (DecimalNumeral.fractionText n.fraction ++ DecimalNumeral.exponentText n.exponent) none reads_start (by decide)
    h.digits.2 (by omega) (by simp)
  rw [Nat.zero_mul, Nat.zero_add, Nat.zero_add] at hp
  change readNumber outside .start (-1) _ = _ at hread
  rw [hread]
  cases hf : n.fraction with
  | none =>
    have hfraction : n.fractionDigits = [] := by rw [DecimalNumeral.fractionDigits, hf]; rfl
    refine ⟨p, -1, ?_, by rw [hfraction]; decide, by rw [hfraction, List.append_nil]; exact hp⟩
    exact readNumber_stop hstop
  | some f =>
    have hfraction : n.fractionDigits = f := by rw [DecimalNumeral.fractionDigits, hf]; rfl
    rw [hfraction] at hlen ⊢
    -- The point starts the counter, and the part is too small to be added there.
    have hflush : p.flush outside = p := by
      refine if_neg ?_
      rw [ge_iff_le, UInt64.not_le, UInt64.lt_iff_toNat_lt]
      exact hpart
    obtain ⟨p', hread', hp', -⟩ := readNumber_digits outside
      (DecimalNumeral.exponentText n.exponent) (some 1) hp hpart (h.fraction f hf).2 hlen
      (by
        rintro j hj
        obtain rfl : 1 = j := by simpa using hj
        omega)
    have hpoint : readNumber outside p (scaleOf none) (46 :: (f ++ DecimalNumeral.exponentText n.exponent)) =
        readNumber outside p (scaleOf (some 1)) (f ++ DecimalNumeral.exponentText n.exponent) := by
      rw [readNumber, if_neg (by decide), if_pos (by decide), hflush]
      rfl
    refine ⟨p', scaleOf (some (1 + f.length)), ?_, ?_, ?_⟩
    · exact (hpoint.trans hread').trans (readNumber_stop hstop)
    · rw [if_neg (scaleOf_some_nonneg (by omega)), scaleOf, Int32.ofNat_add, Int32.add_comm]
      exact Int32.add_sub_cancel _ _
    · rw [numeralValue_append, List.length_append]
      exact hp'

theorem isSpace_signed (sign : NumeralSign) {digits : Str} (h : DecimalNumeral.Row digits) :
    ∃ c t, sign.text ++ digits = c :: t ∧ isSpace c = false := by
  cases sign with
  | absent =>
    obtain ⟨c, t, rfl⟩ := List.exists_cons_of_ne_nil h.1
    exact ⟨c, t, rfl, isSpace_of_isDigit (h.2 c (by simp))⟩
  | plus => exact ⟨43, digits, rfl, by decide⟩
  | minus => exact ⟨45, digits, rfl, by decide⟩

/-- An exponent that fits is read. -/
theorem getInt32_exponent {e : UInt8} {sign : NumeralSign} {digits : Str} (h : DecimalNumeral.Row digits)
    (hmin : -2 ^ 31 ≤ sign.factor * numeralValue digits) (hmax : sign.factor * numeralValue digits < 2 ^ 31) :
    (Istream.ignore ⟨e :: (sign.text ++ digits), false, false⟩).getInt32.1 = sign.factor * numeralValue digits := by
  have hall : allDigits digits = true := List.all_eq_true.mpr h.2
  have hstream : streamInt (-2147483648) 2147483647 0 (sign.text ++ digits) = sign.factor * numeralValue digits := by
    cases sign with
    | absent =>
      rw [NumeralSign.text, List.nil_append, streamInt_digits _ _ _ hall h.1]
      simp only [NumeralSign.factor] at hmax ⊢
      omega
    | plus =>
      rw [NumeralSign.text, List.singleton_append, streamInt_plus _ _ _ hall]
      simp only [NumeralSign.factor] at hmax ⊢
      omega
    | minus =>
      rw [NumeralSign.text, List.singleton_append, streamInt_neg _ _ _ hall]
      simp only [NumeralSign.factor] at hmin ⊢
      omega
  obtain ⟨c, t, htext, hspace⟩ := isSpace_signed sign h
  rw [← hstream, htext]
  simp [Istream.ignore, Istream.good, Istream.getInt32, Istream.sentry, hspace]

/-- The exponent of a numeral is taken off the scale. -/
theorem readExponent_spec {n : DecimalNumeral} (h : n.WellFormed) (scale : Int32)
    (hexp : -2 ^ 31 ≤ n.exponentValue ∧ n.exponentValue < 2 ^ 31)
    (hscale : -2 ^ 31 ≤ scale.toInt - n.exponentValue ∧ scale.toInt - n.exponentValue < 2 ^ 31) :
    (readExponent scale ⟨DecimalNumeral.exponentText n.exponent,
      (DecimalNumeral.exponentText n.exponent).isEmpty, false⟩).1.toInt = scale.toInt - n.exponentValue := by
  cases he : n.exponent with
  | none =>
    rw [show n.exponentValue = 0 by rw [DecimalNumeral.exponentValue, he], Int.sub_zero]
    rfl
  | some e =>
    obtain ⟨mark, sign, digits⟩ := e
    obtain ⟨hmark, hdigits⟩ := h.exponent _ he
    have hvalue : n.exponentValue = sign.factor * numeralValue digits := by rw [DecimalNumeral.exponentValue, he]
    rw [hvalue] at hexp hscale ⊢
    have hhead : (DecimalNumeral.exponentText (some (mark, sign, digits))).head? = some 101 ∨
        (DecimalNumeral.exponentText (some (mark, sign, digits))).head? = some 69 :=
      hmark.imp (congrArg some) (congrArg some)
    rw [readExponent, if_pos hhead]
    have hget := getInt32_exponent (e := mark) hdigits hexp.1 hexp.2
    change (scale - Int32.ofInt (Istream.ignore ⟨mark :: (sign.text ++ digits), false, false⟩).getInt32.1).toInt = _
    rw [hget, Int32.toInt_sub, Int32.toInt_ofInt_of_le hexp.1 hexp.2]
    exact Int.bmod_eq_of_le (by simp; omega) (by simp; omega)

/-- `operator>>` from the first byte on. -/
theorem read_cons (outside : Outside) {c : UInt8} (hc : isSpace c = false) (rest : Str) :
    (read outside (.ofText (c :: rest))).1 =
      let (p, scale, rest) := readNumber outside .start (-1) (if c = 45 ∨ c = 43 then rest else c :: rest)
      ⟨(readExponent (if scale < 0 then 0 else scale - 1) ⟨rest, rest.isEmpty, false⟩).1,
        if c = 45 then (p.finish outside).negate else p.finish outside⟩ := by
  have hsentry : (Istream.ofText (c :: rest)).sentry = .ofText (c :: rest) := by
    simp [Istream.sentry, Istream.ofText, Istream.good, hc]
  have hpeek : (Istream.ofText (c :: rest)).peek = (some c, .ofText (c :: rest)) := rfl
  unfold read
  simp only [hsentry, hpeek]
  by_cases h45 : c = 45
  · subst h45
    rfl
  · by_cases h43 : c = 43
    · subst h43
      rfl
    · simp [h45, h43, Istream.ofText]

/-- **What is read**: the number the text denotes. -/
theorem read_spec (outside : Outside) {n : DecimalNumeral} (h : n.WellFormed)
    (hlen : (n.digits ++ n.fractionDigits).length < 2 ^ 31)
    (hexp : -2 ^ 31 ≤ n.exponentValue ∧ n.exponentValue < 2 ^ 31)
    (hscale : -2 ^ 31 ≤ n.fractionDigits.length - n.exponentValue ∧ n.fractionDigits.length - n.exponentValue < 2 ^ 31) :
    (assignString outside n.text).magnitude.Canonical ∧ (assignString outside n.text).value = n.value := by
  obtain ⟨p, scale, hread, hpoint, hp⟩ := readNumber_spec outside h hlen
  obtain ⟨hc, hs, hv⟩ := hp.finish outside
  have hint : (p.finish outside).toInt = numeralValue (n.digits ++ n.fractionDigits) := by
    rw [toInt, hs, hv, Int.one_mul]
  have hfraction : (Int32.ofNat n.fractionDigits.length).toInt = n.fractionDigits.length := by
    rw [List.length_append] at hlen
    exact toInt32_ofNat (by omega)
  have hexponent := readExponent_spec h (Int32.ofNat n.fractionDigits.length) hexp (by rw [hfraction]; exact hscale)
  rw [hfraction] at hexponent
  -- The two parts of the result, for any sign.
  have hresult : ∀ mag : BigInteger, mag.Canonical →
      mag.toInt = n.sign.factor * numeralValue (n.digits ++ n.fractionDigits) →
      assignString outside n.text = ⟨(readExponent (if scale < 0 then 0 else scale - 1)
        ⟨DecimalNumeral.exponentText n.exponent, (DecimalNumeral.exponentText n.exponent).isEmpty, false⟩).1, mag⟩ →
      (assignString outside n.text).magnitude.Canonical ∧ (assignString outside n.text).value = n.value := by
    intro mag hmag hmagint he
    rw [he, value, hpoint, hexponent, hmagint, n.value_eq]
    refine ⟨hmag, ?_⟩
    push_cast
    congr 2
    ring
  obtain ⟨c, t, ht⟩ := List.exists_cons_of_ne_nil h.digits.1
  have hdigit := h.digits.2 c (by simp [ht])
  obtain ⟨h45, h43⟩ := not_sign_of_isDigit hdigit
  rw [ht] at hread
  cases hsign : n.sign with
  | absent =>
    refine hresult (p.finish outside) hc (by rw [hint, hsign]; simp [NumeralSign.factor]) ?_
    rw [assignString, DecimalNumeral.text, hsign, ht, NumeralSign.text, List.nil_append, List.cons_append,
      read_cons outside (isSpace_of_isDigit hdigit), if_neg (by simp [h45, h43]), ← List.cons_append, hread]
    simp [h45]
  | plus =>
    refine hresult (p.finish outside) hc (by rw [hint, hsign]; simp [NumeralSign.factor]) ?_
    rw [assignString, DecimalNumeral.text, hsign, ht, NumeralSign.text, List.append_assoc, List.singleton_append,
      read_cons outside (by decide), if_pos (.inr rfl), hread]
    rfl
  | minus =>
    refine hresult (p.finish outside).negate (canonical_negate hc) (by rw [toInt_negate, hint, hsign]; simp [NumeralSign.factor]) ?_
    rw [assignString, DecimalNumeral.text, hsign, ht, NumeralSign.text, List.append_assoc, List.singleton_append,
      read_cons outside (by decide), if_pos (.inl rfl), hread]
    rfl

/-! ## Printing -/

theorem toInt32_of_lt {n : Nat} (h : n < 2 ^ 31) : toInt32 n = n :=
  Int.bmod_eq_of_le (by omega) (by omega)

/-- The search for the last character that is not a zero. -/
theorem lastNonZero_spec (pre core : Str) (c : UInt8) (hc : c ≠ 48) (t : Nat) : ∀ {i : Nat}, i ≤ t →
    lastNonZero (pre ++ (core ++ c :: List.replicate t 48)) pre.length (pre.length + core.length + 1 + i) =
      pre.length + core.length := by
  intro i
  induction i with
  | zero =>
    intro _
    have hget : (pre ++ (core ++ c :: List.replicate t 48)).getD (pre.length + core.length) 0 = c := by
      rw [← List.append_assoc, List.getD_eq_getElem?_getD, ← List.length_append,
        List.getElem?_append_right (Nat.le_refl _), Nat.sub_self]
      rfl
    rw [Nat.add_zero, lastNonZero, hget, if_neg (fun h => hc h.2)]
    push_cast
    rfl
  | succ i ih =>
    intro hi
    have hget : (pre ++ (core ++ c :: List.replicate t 48)).getD (pre.length + core.length + 1 + i) 0 = 48 := by
      rw [← List.append_assoc, List.getD_eq_getElem?_getD, ← List.length_append,
        List.getElem?_append_right (by omega), show (pre ++ core).length + 1 + i - (pre ++ core).length = i + 1 by omega,
        List.getElem?_cons_succ, List.getElem?_replicate_of_lt (by omega)]
      rfl
    rw [← Nat.add_assoc, lastNonZero, hget, if_pos ⟨by omega, rfl⟩]
    exact ih (by omega)

/-- A row of characters up to its zeros at the end. -/
theorem exists_core {s : Str} (h : ∃ c ∈ s, c ≠ 48) : ∃ core c t, s = core ++ c :: List.replicate t 48 ∧ c ≠ 48 := by
  induction s using List.reverseRecOn with
  | nil =>
    obtain ⟨c, hc, -⟩ := h
    cases hc
  | append_singleton s x ih =>
    by_cases hx : x = 48
    · subst hx
      obtain ⟨c, hc, hne⟩ := h
      have hmem : c ∈ s := by
        rcases List.mem_append.mp hc with hc | hc
        · exact hc
        · exact absurd (List.mem_singleton.mp hc) hne
      obtain ⟨core, c, t, rfl, hne⟩ := ih ⟨c, hmem, hne⟩
      refine ⟨core, c, t + 1, ?_, hne⟩
      rw [List.replicate_succ', List.append_assoc, List.cons_append]
    · exact ⟨s, x, 0, rfl, hx⟩

/-- The first character of a magnitude is its sign, if it has one. -/
theorem head_signed {sign : NumeralSign} (hsign : sign = .absent ∨ sign = .minus) {s : Str}
    (hhead : ∀ d ∈ s.head?, d ≠ 45) :
    (if (sign.text ++ s).head? = some 45 then ascii "-" else []) = sign.text ∧
      (if (sign.text ++ s).head? = some 45 then 1 else 0) = sign.text.length := by
  rcases hsign with rfl | rfl
  · have hnot : (NumeralSign.absent.text ++ s).head? ≠ some 45 := fun h => hhead 45 h rfl
    rw [if_neg hnot, if_neg hnot]
    exact ⟨rfl, rfl⟩
  · exact ⟨rfl, rfl⟩

/-- The text of a magnitude with a point, where `k` is the position of the last
digit that is not a zero. -/
theorem pointText_signed {sign : NumeralSign} (hsign : sign = .absent ∨ sign = .minus) {s : Str} {k : Nat} (hs : s ≠ [])
    (hhead : ∀ d ∈ s.head?, d ≠ 45) (hlen : (sign.text ++ s).length < 2 ^ 31)
    (hk : lastNonZero (sign.text ++ s) sign.text.length (sign.text.length + s.length) = sign.text.length + k)
    (scale : Nat) :
    pointText (sign.text ++ s) scale = sign.text ++
      if s.length ≤ scale then ascii "0." ++ List.replicate (scale - s.length) 48 ++ s.take (k + 1)
      else
        s.take (s.length - scale) ++
          if s.length - scale ≤ k then ascii "." ++ (s.drop (s.length - scale)).take (k + 1 - (s.length - scale)) else [] := by
  have hpos : 0 < s.length := List.length_pos_of_ne_nil hs
  have hsigned := head_signed hsign hhead
  have hdrop : ∀ j, (sign.text ++ s).drop (sign.text.length + j) = s.drop j := by
    intro j
    rw [← List.drop_drop, List.drop_left]
  have hcast : toInt32 (sign.text ++ s).length = sign.text.length + s.length := by
    rw [toInt32_of_lt hlen, List.length_append]
    push_cast
    rfl
  generalize sign.text ++ s = magStr at *
  have hmagLen : (if magStr.head? = some 45 then toInt32 magStr.length - 1 else toInt32 magStr.length) = s.length := by
    have hbegin := hsigned.2
    split
    next h =>
      rw [if_pos h] at hbegin
      omega
    next h =>
      rw [if_neg h] at hbegin
      omega
  have hlast : (if toInt32 magStr.length - 1 < 0 then toInt32 magStr.length - 1
      else lastNonZero magStr sign.text.length ((toInt32 magStr.length - 1).toNat + 1)) = sign.text.length + k := by
    rw [if_neg (by omega), show (toInt32 magStr.length - 1).toNat + 1 = sign.text.length + s.length by omega, hk]
  have hwrite : ∀ (j : Nat) (n : Int), writeFrom magStr (sign.text.length + j) n = (s.drop j).take n.toNat := by
    intro j n
    rw [writeFrom, hdrop]
  have hbehind : ((sign.text.length : Int) + k - sign.text.length + 1).toNat = k + 1 := by omega
  have hzeros : (-((s.length : Int) - scale)).toNat = scale - s.length := by omega
  have hfront : ((s.length : Int) - scale).toNat = s.length - scale := by omega
  simp only [pointText, hsigned.1, hsigned.2, hmagLen, hlast]
  refine congrArg (sign.text ++ ·) ?_
  by_cases hle : s.length ≤ scale
  · have hall := hwrite 0 (sign.text.length + k - sign.text.length + 1)
    rw [Nat.add_zero, List.drop_zero, hbehind] at hall
    rw [if_pos hle, if_pos (by omega), hzeros, hall]
  · have hall := hwrite 0 (s.length - scale)
    rw [Nat.add_zero, List.drop_zero, hfront] at hall
    rw [if_neg hle, if_neg (by omega), hall, hfront, hwrite]
    by_cases hlt : s.length - scale ≤ k
    · rw [if_pos hlt, if_pos (by omega)]
      refine congrArg (fun n => _ ++ (ascii "." ++ (s.drop (s.length - scale)).take n)) ?_
      omega
    · rw [if_neg hlt, if_neg (by omega)]

/-- The digits are cut at the point and behind the last one that is not a
zero. -/
theorem pointText_eq {sign : NumeralSign} (hsign : sign = .absent ∨ sign = .minus) (core : Str) {c : UInt8} (t scale : Nat)
    (hc : c ≠ 48) (hhead : ∀ d ∈ (core ++ [c]).head?, d ≠ 45)
    (hlen : (sign.text ++ (core ++ c :: List.replicate t 48)).length < 2 ^ 31) :
    pointText (sign.text ++ (core ++ c :: List.replicate t 48)) scale = sign.text ++
      if core.length + 1 + t ≤ scale then
        ascii "0." ++ List.replicate (scale - (core.length + 1 + t)) 48 ++ (core ++ [c])
      else
        (core ++ c :: List.replicate t 48).take (core.length + 1 + t - scale) ++
          if t < scale then ascii "." ++ (core ++ [c]).drop (core.length + 1 + t - scale) else [] := by
  have hcore : (core ++ [c]).length = core.length + 1 := by simp
  have hlength : (core ++ c :: List.replicate t 48).length = core.length + 1 + t := by
    simp
    omega
  have hlast := lastNonZero_spec sign.text core c hc t (Nat.le_refl t)
  have hsum : sign.text.length + core.length + 1 + t = sign.text.length + (core ++ c :: List.replicate t 48).length := by omega
  rw [hsum] at hlast
  have hheadAll : ∀ d ∈ (core ++ c :: List.replicate t 48).head?, d ≠ 45 := by
    rw [List.append_cons, List.head?_append_of_ne_nil _ (by simp)]
    exact hhead
  rw [pointText_signed hsign (by simp) hheadAll hlen hlast, hlength]
  refine congrArg (sign.text ++ ·) ?_
  split
  next hle =>
    rw [List.append_cons, List.take_left' hcore]
  next hle =>
    refine congrArg ((core ++ c :: List.replicate t 48).take (core.length + 1 + t - scale) ++ ·) ?_
    by_cases hlt : t < scale
    · rw [if_pos hlt, if_pos (by omega), List.append_cons, List.drop_append_of_le_length (by omega),
        List.take_left' (by rw [List.length_drop, hcore])]
    · rw [if_neg hlt, if_neg (by omega)]

/-- A numeral without an exponent whose digits are those of a number short of
some zeros. -/
theorem value_of_digits {n : DecimalNumeral} {m t scale : Nat} (hexp : n.exponent = none)
    (hm : numeralValue (n.digits ++ n.fractionDigits) * 10 ^ t = m) (hscale : n.fractionDigits.length + t = scale) :
    n.value = n.sign.factor * m * 10 ^ (-(scale : Int)) := by
  have hten : (10 : Rat) ≠ 0 := by norm_num
  have hzero : n.exponentValue = 0 := by rw [DecimalNumeral.exponentValue, hexp]
  rw [n.value_eq, hzero, ← hm, ← hscale]
  push_cast
  rw [show (0 : Int) - n.fractionDigits.length = t + -(n.fractionDigits.length + t : Int) by ring, zpow_add₀ hten, zpow_natCast]
  ring

theorem numeralValue_replicate_zero (n : Nat) : numeralValue (List.replicate n 48) = 0 := by
  induction n with
  | zero => rfl
  | succ n ih => rw [List.replicate_succ, numeralValue_cons, ih]; simp

theorem numeralValue_zeros_append (n : Nat) (s : Str) :
    numeralValue (List.replicate n 48 ++ s) = numeralValue s := by
  rw [numeralValue_append, numeralValue_replicate_zero, Nat.zero_mul, Nat.zero_add]

theorem numeralValue_zeros (s : Str) (n : Nat) : numeralValue (s ++ List.replicate n 48) = numeralValue s * 10 ^ n := by
  rw [numeralValue_append, numeralValue_replicate_zero, List.length_replicate, Nat.add_zero]

section

variable {sign : NumeralSign} {digits : Str} {m t scale : Nat}

/-- Zeros stand between the point and the digits. -/
theorem fraction_numeral (hne : digits ≠ []) (hdigits : ∀ x ∈ digits, isDigit x = true)
    (hvalue : numeralValue digits * 10 ^ t = m) (hle : digits.length + t ≤ scale) :
    ∃ n : DecimalNumeral, n.WellFormed ∧ n.exponent = none ∧
      sign.text ++ (ascii "0." ++ List.replicate (scale - (digits.length + t)) 48 ++ digits) = n.text ∧
      n.value = sign.factor * m * 10 ^ (-(scale : Int)) := by
  refine ⟨⟨sign, [48], some (List.replicate (scale - (digits.length + t)) 48 ++ digits), none⟩,
    ⟨⟨by simp, List.all_eq_true.mp rfl⟩, ?_, by simp⟩, rfl, ?_, value_of_digits rfl (t := t) ?_ ?_⟩
  · rintro f hf
    obtain rfl := Option.some.inj hf
    refine ⟨by simp [hne], fun x hx => ?_⟩
    rcases List.mem_append.mp hx with hx | hx
    · rw [List.eq_of_mem_replicate hx]
      decide
    · exact hdigits x hx
  · rw [DecimalNumeral.text]
    simp [DecimalNumeral.fractionText, DecimalNumeral.exponentText, ascii]
  · rw [← hvalue]
    exact congrArg (· * 10 ^ t) (numeralValue_zeros_append (scale - (digits.length + t) + 1) digits)
  · simp only [DecimalNumeral.fractionDigits, Option.getD_some, List.length_append, List.length_replicate]
    omega

/-- The point is inside the digits. -/
theorem mixed_numeral (hdigits : ∀ x ∈ digits, isDigit x = true) (hvalue : numeralValue digits * 10 ^ t = m)
    (hlt : t < scale) (hcut : scale < digits.length + t) :
    ∃ n : DecimalNumeral, n.WellFormed ∧ n.exponent = none ∧
      sign.text ++ (digits.take (digits.length + t - scale) ++ (ascii "." ++ digits.drop (digits.length + t - scale))) =
        n.text ∧
      n.value = sign.factor * m * 10 ^ (-(scale : Int)) := by
  obtain ⟨cut, hcutEq⟩ : ∃ cut, cut = digits.length + t - scale := ⟨_, rfl⟩
  rw [← hcutEq]
  refine ⟨⟨sign, digits.take cut, some (digits.drop cut), none⟩,
    ⟨⟨?_, fun x hx => hdigits x (List.mem_of_mem_take hx)⟩, ?_, by simp⟩, rfl, ?_, value_of_digits rfl (t := t) ?_ ?_⟩
  · rw [← List.length_pos_iff, List.length_take]
    omega
  · rintro f hf
    obtain rfl := Option.some.inj hf
    refine ⟨?_, fun x hx => hdigits x (List.mem_of_mem_drop hx)⟩
    rw [← List.length_pos_iff, List.length_drop]
    omega
  · rw [DecimalNumeral.text]
    simp [DecimalNumeral.fractionText, DecimalNumeral.exponentText, ascii]
  · rw [← hvalue]
    exact congrArg (numeralValue · * 10 ^ t) (List.take_append_drop cut digits)
  · simp only [DecimalNumeral.fractionDigits, Option.getD_some, List.length_drop]
    omega

/-- Only zeros would stand behind the point. -/
theorem whole_numeral (hne : digits ≠ []) (hdigits : ∀ x ∈ digits, isDigit x = true)
    (hvalue : numeralValue digits * 10 ^ t = m) (hle : scale ≤ t) :
    ∃ n : DecimalNumeral, n.WellFormed ∧ n.exponent = none ∧
      sign.text ++ (digits ++ List.replicate (t - scale) 48) = n.text ∧
      n.value = sign.factor * m * 10 ^ (-(scale : Int)) := by
  refine ⟨⟨sign, digits ++ List.replicate (t - scale) 48, none, none⟩,
    ⟨⟨by simp [hne], fun x hx => ?_⟩, by simp, by simp⟩, rfl, ?_, value_of_digits rfl (t := scale) ?_ (Nat.zero_add scale)⟩
  · rcases List.mem_append.mp hx with hx | hx
    · exact hdigits x hx
    · rw [List.eq_of_mem_replicate hx]
      decide
  · rw [DecimalNumeral.text]
    simp [DecimalNumeral.fractionText, DecimalNumeral.exponentText]
  · simp only [DecimalNumeral.fractionDigits, Option.getD_none, List.append_nil]
    rw [numeralValue_zeros, Nat.mul_assoc, ← Nat.pow_add, Nat.sub_add_cancel hle, hvalue]

end

/-- The text of a magnitude with a point is a numeral of the scaled number. -/
theorem pointText_spec {sign : NumeralSign} (hsign : sign = .absent ∨ sign = .minus) {m : Nat} (scale : Nat) (hm : 0 < m)
    (hlen : (sign.text ++ decimal m).length < 2 ^ 31) :
    ∃ n : DecimalNumeral, n.WellFormed ∧ n.exponent = none ∧ pointText (sign.text ++ decimal m) scale = n.text ∧
      n.value = sign.factor * m * 10 ^ (-(scale : Int)) := by
  have hnonzero : ∃ c ∈ decimal m, c ≠ 48 := by
    obtain ⟨c, t, ht⟩ := List.exists_cons_of_ne_nil (decimal_ne_nil m)
    have := head_decimal hm
    rw [ht] at this ⊢
    exact ⟨c, by simp, fun h0 => this (congrArg some h0)⟩
  obtain ⟨core, c, t, hcore, hc⟩ := exists_core hnonzero
  have hdigits : ∀ x ∈ core ++ [c], isDigit x = true := by
    intro x hx
    refine isDigit_of_mem_decimal m x ?_
    rw [hcore, List.append_cons]
    exact List.mem_append_left _ hx
  have hvalue : numeralValue (core ++ [c]) * 10 ^ t = m := by
    rw [← numeralValue_decimal m, hcore, ← numeralValue_zeros, List.append_assoc, List.singleton_append]
  have hpoint := pointText_eq hsign core t scale hc
    (fun x hx => (not_sign_of_isDigit (hdigits x (List.mem_of_mem_head? hx))).1) (hcore ▸ hlen)
  have hlength : core.length + 1 = (core ++ [c]).length := by simp
  have hne : core ++ [c] ≠ [] := by simp
  rw [hcore, hpoint, hlength, List.append_cons core c (List.replicate t 48)]
  by_cases hle : (core ++ [c]).length + t ≤ scale
  · rw [if_pos hle]
    exact fraction_numeral hne hdigits hvalue hle
  by_cases hlt : t < scale
  · rw [if_neg hle, if_pos hlt, List.take_append_of_le_length (by omega)]
    exact mixed_numeral hdigits hvalue hlt (by omega)
  · have hsplit : core ++ [c] ++ List.replicate t 48 =
        (core ++ [c] ++ List.replicate (t - scale) 48) ++ List.replicate scale 48 := by
      rw [List.append_assoc (core ++ [c]), List.replicate_append_replicate, Nat.sub_add_cancel (by omega)]
    have hfront : (core ++ [c] ++ List.replicate t 48).take ((core ++ [c]).length + t - scale) =
        core ++ [c] ++ List.replicate (t - scale) 48 := by
      rw [hsplit, List.take_left']
      rw [List.length_append, List.length_replicate]
      omega
    rw [if_neg hle, if_neg hlt, hfront, List.append_nil]
    exact whole_numeral hne hdigits hvalue (by omega)

/-- The text of an integer with zeros behind it is a numeral. -/
theorem zerosText_spec (sign : NumeralSign) (m k : Nat) :
    ∃ n : DecimalNumeral, n.WellFormed ∧ n.exponent = none ∧
      sign.text ++ decimal m ++ List.replicate k 48 = n.text ∧ n.value = sign.factor * m * 10 ^ (k : Int) := by
  refine ⟨⟨sign, decimal m ++ List.replicate k 48, none, none⟩,
    ⟨⟨by simp [decimal_ne_nil], fun c hc => ?_⟩, by simp, by simp⟩, rfl, ?_, ?_⟩
  · rcases List.mem_append.mp hc with hc | hc
    · exact isDigit_of_mem_decimal m c hc
    · rw [List.eq_of_mem_replicate hc]
      decide
  · rw [DecimalNumeral.text]
    simp [DecimalNumeral.fractionText, DecimalNumeral.exponentText]
  · rw [DecimalNumeral.value_eq, zpow_natCast]
    simp only [DecimalNumeral.fractionDigits, DecimalNumeral.exponentValue, Option.getD_none, List.append_nil,
      List.length_nil, numeralValue_zeros, numeralValue_decimal]
    push_cast
    ring

/-- **What is printed**: a numeral of the number, without an exponent. -/
theorem write_spec (outside : Outside) {d : Decimal} (h : d.magnitude.Canonical) (hmin : -2 ^ 31 < d.scale.toInt)
    (hlen : 0 < d.scale → (intText d.magnitude.toInt).length < 2 ^ 31) :
    ∃ n : DecimalNumeral, n.WellFormed ∧ n.exponent = none ∧ write outside d = some n.text ∧ n.value = d.value := by
  obtain ⟨sign, hsign, htext, hfactor⟩ := intText_eq d.magnitude.toInt
  have hfactorq : (sign.factor : Rat) * (d.magnitude.toInt.natAbs : Nat) = d.magnitude.toInt := by
    have := congrArg (Int.cast : Int → Rat) hfactor
    rwa [Int.cast_mul, Int.cast_natCast] at this
  have hprint := write_eq outside h
  unfold write
  split
  · next hnil =>
    refine ⟨⟨.absent, ascii "0", none, none⟩, ⟨⟨by decide, List.all_eq_true.mp (by decide)⟩, by simp, by simp⟩, rfl, rfl, ?_⟩
    rw [value, toInt, hnil]
    simp [DecimalNumeral.value, DecimalNumeral.fractionDigits, numeralValue, ascii]
  · next hnil =>
    rw [hprint]
    dsimp only
    split
    · next hle =>
      have hle' : d.scale.toInt ≤ 0 := Int32.le_iff_toInt_le.mp hle
      have hcount : ((-d.scale).toInt.toNat : Int) = -d.scale.toInt := by
        rw [Int32.toInt_neg]
        have := Int.bmod_eq_of_le (n := -d.scale.toInt) (m := 2 ^ 32) (by simp; omega) (by simp; omega)
        omega
      obtain ⟨n, hwf, hexp, hn, hv⟩ := zerosText_spec sign d.magnitude.toInt.natAbs (-d.scale).toInt.toNat
      refine ⟨n, hwf, hexp, by rw [htext, hn], ?_⟩
      rw [hv, value, hfactorq, hcount]
    · next hgt =>
      have hpos : 0 < d.scale := Int32.not_le.mp hgt
      have hpos' : 0 < d.scale.toInt := Int32.lt_iff_toInt_lt.mp hpos
      have hne : 0 < d.magnitude.toInt.natAbs := by
        rw [toInt, Int.natAbs_mul, Int.natAbs_natCast]
        have hv : Limbs.value d.magnitude.mag ≠ 0 := fun h0 => hnil ((value_eq_zero_iff h.normalized).mp h0)
        rcases h.sign with hs | hs <;> rw [hs] <;> simpa using Nat.pos_of_ne_zero hv
      obtain ⟨scale, hscale⟩ : ∃ scale : Nat, d.scale.toInt = scale := ⟨d.scale.toInt.toNat, by omega⟩
      obtain ⟨n, hwf, hexp, hn, hv⟩ := pointText_spec hsign scale hne (htext ▸ hlen hpos)
      refine ⟨n, hwf, hexp, by rw [htext, hscale, hn], ?_⟩
      rw [hv, value, hfactorq, hscale]

/-- **The text of a decimal.** What is printed denotes the number, at every
scale above `INT32_MIN`; behind a point, of a magnitude whose text has fewer
than `2 ^ 31` characters. A text of fewer than `2 ^ 31` digits is read as the
number it denotes, if its exponent and its scale fit; so is what was printed. -/
theorem decimalText_exact (outside : Outside) :
    (∀ d : Decimal, d.magnitude.Canonical → -2 ^ 31 < d.scale.toInt →
      (0 < d.scale → (intText d.magnitude.toInt).length < 2 ^ 31) →
      ∃ n : DecimalNumeral, n.WellFormed ∧ n.exponent = none ∧ write outside d = some n.text ∧ n.value = d.value ∧
        ((n.digits ++ n.fractionDigits).length < 2 ^ 31 → (assignString outside n.text).value = d.value)) ∧
    ∀ n : DecimalNumeral, n.WellFormed → (n.digits ++ n.fractionDigits).length < 2 ^ 31 →
      -2 ^ 31 ≤ n.exponentValue ∧ n.exponentValue < 2 ^ 31 →
      -2 ^ 31 ≤ n.fractionDigits.length - n.exponentValue ∧ n.fractionDigits.length - n.exponentValue < 2 ^ 31 →
      (assignString outside n.text).magnitude.Canonical ∧ (assignString outside n.text).value = n.value := by
  refine ⟨fun d h hmin hlen => ?_, fun n hwf hlen hexp hscale => read_spec outside hwf hlen hexp hscale⟩
  obtain ⟨n, hwf, hexp, hwrite, hv⟩ := write_spec outside h hmin hlen
  refine ⟨n, hwf, hexp, hwrite, hv, fun hdigits => ?_⟩
  have hzero : n.exponentValue = 0 := by rw [DecimalNumeral.exponentValue, hexp]
  have hfraction : n.fractionDigits.length < 2 ^ 31 := by
    rw [List.length_append] at hdigits
    omega
  rw [(read_spec outside hwf hdigits (by rw [hzero]; decide) (by rw [hzero]; omega)).2, hv]

/-- `-12.05` is printed and read back, and `-12.050e+3` is read. -/
theorem decimalText_exact_point :
    (∃ n : DecimalNumeral, write .zeros ⟨2, assignInt64 (-1205)⟩ = some n.text ∧
      n.value = (⟨2, assignInt64 (-1205)⟩ : Decimal).value) ∧
    (assignString .zeros (DecimalNumeral.text ⟨.minus, ascii "12", some (ascii "050"), some (101, .plus, ascii "3")⟩)).value =
      DecimalNumeral.value ⟨.minus, ascii "12", some (ascii "050"), some (101, .plus, ascii "3")⟩ := by
  obtain ⟨n, -, -, hwrite, hv, -⟩ := (decimalText_exact .zeros).1 ⟨2, assignInt64 (-1205)⟩
    (canonical_assignInt64 (-1205)) (by decide) (by decide)
  refine ⟨⟨n, hwrite, hv⟩, ((decimalText_exact .zeros).2 _ ⟨⟨by decide, List.all_eq_true.mp (by decide)⟩, ?_, ?_⟩
    (by decide) (by decide) (by decide)).2⟩
  · rintro f hf
    obtain rfl := Option.some.inj hf
    exact ⟨by decide, List.all_eq_true.mp (by decide)⟩
  · rintro e he
    obtain rfl := Option.some.inj he
    exact ⟨.inl rfl, by decide, List.all_eq_true.mp (by decide)⟩

/-! ## Digits that are lost -/

theorem numeralValue_eq_zero {s : Str} (h : ∀ c ∈ s, c = 48) : numeralValue s = 0 := by
  rw [List.eq_replicate_of_mem h]
  exact numeralValue_replicate_zero _

/-- A text of zeros and points denotes nothing but zero. -/
theorem value_of_zeros {n : DecimalNumeral} (hwf : n.WellFormed) (h : ∀ c ∈ n.text, c = 48 ∨ c = 46) : n.value = 0 := by
  have hdigit : ∀ c, isDigit c = true → c = 48 ∨ c = 46 → c = 48 := by
    rintro c hc (h48 | rfl)
    · exact h48
    · exact absurd hc (by decide)
  have hdigits : numeralValue n.digits = 0 := by
    refine numeralValue_eq_zero fun c hc => hdigit c (hwf.digits.2 c hc) (h c ?_)
    rw [DecimalNumeral.text]
    simp [hc]
  have hfraction : numeralValue n.fractionDigits = 0 := by
    refine numeralValue_eq_zero fun c hc => ?_
    cases hf : n.fraction with
    | none => simp [DecimalNumeral.fractionDigits, hf] at hc
    | some f =>
      have hc : c ∈ f := by simpa [DecimalNumeral.fractionDigits, hf] using hc
      refine hdigit c ((hwf.fraction f hf).2 c hc) (h c ?_)
      rw [DecimalNumeral.text, hf]
      simp [DecimalNumeral.fractionText, hc]
  rw [DecimalNumeral.value, hdigits, hfraction]
  simp

/-- A power of ten whose length wraps to a negative number loses its digits. -/
theorem pointText_wrapped {n : Nat} (h : toInt32 (n + 1) < 0) :
    ∀ c ∈ pointText (49 :: List.replicate n 48) 1, c = 48 ∨ c = 46 := by
  have hpoint : pointText (49 :: List.replicate n 48) 1 =
      ascii "0." ++ List.replicate (-(toInt32 (n + 1) - 1)).toNat 48 := by
    have hlength : (49 :: List.replicate n 48 : Str).length = n + 1 := by rw [List.length_cons, List.length_replicate]
    have hhead : (49 :: List.replicate n 48 : Str).head? ≠ some 45 := by
      rw [List.head?_cons]
      decide
    have hnone : (toInt32 (n + 1) - 1 - ((0 : Nat) : Int) + 1).toNat = 0 := by omega
    simp only [pointText, hlength, if_neg hhead]
    rw [if_pos (by omega), if_pos (by omega), writeFrom, hnone, List.take_zero, List.append_nil, List.nil_append]
  rw [hpoint]
  intro c hc
  rcases List.mem_append.mp hc with hc | hc
  · rw [show ascii "0." = [48, 46] from rfl] at hc
    simpa using hc
  · exact .inl (List.eq_of_mem_replicate hc)

/-- A row of digits is read as an integer. -/
theorem readNumber_row (outside : Outside) : ∀ {digits : Str} {p : Parts}, (∀ c ∈ digits, isDigit c = true) →
    readNumber outside p (-1) digits = ((readDigits outside p digits).1, -1, []) := by
  intro digits
  induction digits with
  | nil => exact fun _ => rfl
  | cons c digits ih =>
    intro p h
    have hc := h c (by simp)
    rw [readNumber, if_pos hc, readDigits, if_pos hc, if_neg (by decide)]
    exact ih fun d hd => h d (by simp [hd])

theorem assignString_row (outside : Outside) {digits : Str} (h : DecimalNumeral.Row digits) :
    assignString outside digits = ⟨0, BigInteger.assignString outside digits⟩ := by
  obtain ⟨c, rest, rfl⟩ := List.exists_cons_of_ne_nil h.1
  have hdigit := h.2 c (by simp)
  have hspace := isSpace_of_isDigit hdigit
  obtain ⟨h45, h43⟩ := not_sign_of_isDigit hdigit
  rw [assignString, read_cons outside hspace, if_neg (by simp [h45, h43]), readNumber_row outside h.2,
    BigInteger.assignString, BigInteger.read_cons outside hspace, if_neg (by simp [h45, h43])]
  simp only [if_neg h45]
  rfl

/-- Behind a point, a power of ten of such a length. -/
theorem write_wrapped (outside : Outside) {v : BigInteger} {n : Nat} (hc : v.Canonical) (hv : v.toInt = 10 ^ n)
    (h : toInt32 (n + 1) < 0) : ∃ text, write outside ⟨1, v⟩ = some text ∧
      ∀ n : DecimalNumeral, n.WellFormed → n.text = text → n.value ≠ (⟨1, v⟩ : Decimal).value := by
  have hpow : (10 : Int) ^ n ≠ 0 := pow_ne_zero _ (by decide)
  have hnonempty : v.mag ≠ [] := by
    intro hnil
    rw [toInt, hnil] at hv
    exact hpow (by rw [← hv]; exact Int.mul_zero _)
  refine ⟨pointText (intText v.toInt) 1, ?_, fun numeral hwf htext => ?_⟩
  · rw [write, if_neg hnonempty]
    dsimp only
    rw [write_eq outside hc]
    exact if_neg (by decide)
  · have hvalue : (⟨1, v⟩ : Decimal).value ≠ 0 := by
      rw [value, hv]
      exact mul_ne_zero (Int.cast_ne_zero.mpr hpow) (zpow_ne_zero _ (by norm_num))
    rw [intText_pow_ten hv] at htext
    rw [value_of_zeros hwf (htext ▸ pointText_wrapped h)]
    exact hvalue.symm

/-- Without one, the number may not be read back. -/
theorem integer_not_read_back (outside : Outside) {v : BigInteger} {n : Nat} (hc : v.Canonical)
    (hv : v.toInt = 10 ^ (18 + n)) (hn : 20 ≤ n) (hcount : Int32.ofNat n < 0) :
    ∃ text, write outside ⟨0, v⟩ = some text ∧ (assignString outside text).value ≠ (⟨0, v⟩ : Decimal).value := by
  have hnonempty : v.mag ≠ [] := by
    intro hnil
    rw [toInt, hnil] at hv
    exact pow_ne_zero (18 + n) (by decide : (10 : Int) ≠ 0) (by rw [← hv]; exact Int.mul_zero _)
  refine ⟨intText v.toInt, ?_, fun he => ?_⟩
  · rw [write, if_neg hnonempty]
    dsimp only
    rw [write_eq outside hc]
    exact (if_pos (by decide)).trans (congrArg some (List.append_nil _))
  · have hrow : DecimalNumeral.Row (intText v.toInt) := by
      rw [intText_pow_ten hv]
      refine ⟨List.cons_ne_nil _ _, fun c hmem => ?_⟩
      rcases List.mem_cons.mp hmem with rfl | hmem
      · rfl
      · rw [List.eq_of_mem_replicate hmem]
        rfl
    rw [assignString_row outside hrow, value, value, Int32.toInt_zero, Int.neg_zero, zpow_zero, mul_one, mul_one,
      Int.cast_inj] at he
    exact not_read_back outside hv hn hcount ((canonical_read outside _).ext hc he)

/-- **Digits are lost**: with a point, the digits of `longNumber` are not
printed, and no numeral of the number has the printed text; without one, it is
not read back. -/
theorem longNumber_not_exact :
    (longNumber.Canonical ∧ ∀ outside : Outside, ∃ text, write outside ⟨1, longNumber⟩ = some text ∧
      ∀ n : DecimalNumeral, n.WellFormed → n.text = text → n.value ≠ (⟨1, longNumber⟩ : Decimal).value) ∧
    ∀ outside : Outside, ∃ text, write outside ⟨0, longNumber⟩ = some text ∧
      (assignString outside text).value ≠ (⟨0, longNumber⟩ : Decimal).value := by
  obtain ⟨hc, hv⟩ := longNumber_spec
  exact ⟨⟨hc, fun outside => write_wrapped outside hc hv (by decide)⟩,
    fun outside => integer_not_read_back outside hc hv (by decide) (by decide)⟩

end Common.Decimal

end DocumentDbOdbc
