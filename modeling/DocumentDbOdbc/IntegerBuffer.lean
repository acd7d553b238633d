/-
Integers and texts put into buffers of C integers.

A `Put` casts, and says `AI_SUCCESS` whatever the cast changes. A text is first
extracted from a stream into 64 bits: the digits at its beginning, or the bound
if they are too many (`streamInt_text`). `put_integer_exact_iff` says what
arrives as it is.
-/
import DocumentDbOdbc.BufferMemory
import DocumentDbOdbc.NumeralText
import Mathlib.RingTheory.Coprime.Lemmas

namespace DocumentDbOdbc

open Effect ApplicationDataBuffer BigInteger

/-- What `PutInt8`, `PutInt16`, `PutInt32` and `PutInt64` get, and `PutString`. -/
inductive IntegerSource where
  | number (bytes : Nat) (v : Int)
  | text (s : Str)
  deriving DecidableEq, Repr

namespace IntegerSource

def call : IntegerSource → PutCall
  | number bytes v => .num (some (.int bytes v))
  | text s => .string (some s)

/-- The integer it is. -/
def Is : IntegerSource → Int → Prop
  | number _ v, n => n = v
  | text s, n => DecimalNumeral.Denotes s n

end IntegerSource

/-! ## Texts in a stream -/

/-- Where an extraction into 64 bits stops. -/
def saturated (n : Int) : Int := if 0 < n then 9223372036854775807 else -9223372036854775808

/-- A stream extracts the digits before the point. -/
theorem streamInt_text {d : DecimalNumeral} (hd : d.WellFormed) (indeterminate : Int) :
    streamInt (-9223372036854775808) 9223372036854775807 indeterminate d.text =
      if Fits 8 true d.integerPart then d.integerPart else saturated d.integerPart := by
  obtain ⟨c, t, hct, hc, htext⟩ := DecimalNumeral.head_text hd
  obtain ⟨h45, h43⟩ := not_sign_of_isDigit hc
  have htake : (c :: (t ++ d.tail)).takeWhile Numeral.isDigit = d.digits := by
    rw [← List.cons_append, ← hct, DecimalNumeral.takeWhile_digits hd fun c hc => hc]
    exact List.takeWhile_eq_self_iff.mpr hd.digits.2
  have hread : streamInt (-9223372036854775808) 9223372036854775807 indeterminate d.text =
      if d.sign = .minus then max d.integerPart (-9223372036854775808) else min d.integerPart 9223372036854775807 := by
    unfold streamInt DecimalNumeral.integerPart
    rw [htext]
    cases d.sign with
    | absent => simp [NumeralSign.text, NumeralSign.factor, isSpace_of_isDigit hc, h45, h43, htake]
    | plus => simp [NumeralSign.text, NumeralSign.factor, htake, isSpace]
    | minus => simp [NumeralSign.text, NumeralSign.factor, htake, isSpace]
  have hsign : if d.sign = .minus then d.integerPart ≤ 0 else 0 ≤ d.integerPart := by
    unfold DecimalNumeral.integerPart
    cases d.sign <;> simp [NumeralSign.factor]
  rw [hread]
  simp only [fits_eight, saturated]
  by_cases hminus : d.sign = .minus
  · rw [if_pos hminus] at hsign ⊢
    split <;> omega
  · rw [if_neg hminus] at hsign ⊢
    split <;> omega

/-! ## Casts -/

/-- An integer with a tenth, a hundredth and so on of the digits before the
point is not what these are cast to. -/
theorem cast_integerPart {d : DecimalNumeral} (hd : d.WellFormed) {size : Nat} (hsize : 0 < size) {signed : Bool} {n : Int}
    (h : d.value = n) (hcast : castInteger size signed d.integerPart = n) : n = d.integerPart := by
  have hfits : Fits size signed n := hcast ▸ fits_castInteger hsize signed d.integerPart
  obtain ⟨k, hk, hvalue⟩ := DecimalNumeral.exists_abs h
  have hpow : (0 : Int) < 256 ^ size := Int.pow_pos (by decide)
  rcases DecimalNumeral.digits_le_or hd hvalue with hle | ⟨j, hj, hdigits⟩
  · -- the digits are not more than the integer, which fits
    have hpart : Fits size signed d.integerPart := by
      rw [hk] at hfits
      refine hfits.of_between ?_
      unfold DecimalNumeral.integerPart
      cases d.sign <;> simp only [NumeralSign.factor] <;> omega
    exact hcast.symm.trans (castInteger_of_fits hpart)
  · -- `10 ^ j - 1` is odd, so the integer is a multiple of the range
    have hpart : d.integerPart = n * 10 ^ j := by
      rw [DecimalNumeral.integerPart, hdigits, hk]
      push_cast
      ring
    have hdvd : (256 : Int) ^ size ∣ n * (10 ^ j - 1) := by
      have hmod := castInteger_emod size signed d.integerPart
      rw [hcast, hpart] at hmod
      rw [mul_sub, mul_one]
      exact Int.ModEq.dvd hmod
    have hcoprime : IsCoprime ((256 : Int) ^ size) (10 ^ j - 1) := by
      obtain ⟨i, rfl⟩ : ∃ i, j = i + 1 := ⟨j - 1, by omega⟩
      have htwo : IsCoprime (2 : Int) (10 ^ (i + 1) - 1) := ⟨5 * 10 ^ i, -1, by ring⟩
      have hpow2 : (256 : Int) ^ size = 2 ^ (8 * size) := by rw [pow_mul]; norm_num
      rw [hpow2]
      exact htwo.pow_left
    have hzero := hfits.eq_zero_of_dvd (hcoprime.dvd_of_dvd_mul_right hdvd)
    rw [hpart, hzero, Int.zero_mul]

/-! ## What arrives -/

namespace ApplicationDataBuffer

/-- Where the result is `AI_SUCCESS`, the integer stored is the one put. -/
def StoresExactly (P : Platform) (b : ApplicationDataBuffer) (p : Int) (size : Nat) (signed : Bool) (src : IntegerSource) :
    Prop :=
  (b.put P src.call).value = .ok .success →
    ∃ n, src.Is n ∧ ∀ m, readInteger (b.after P src.call m) p size signed = n

/-- The number fits. A text is a numeral of an integer that fits and is all
there is before the point; or there is more before it than 64 bits hold and the
integer happens to be what the bound is cast to. -/
def FitsTarget (size : Nat) (signed : Bool) : IntegerSource → Prop
  | .number _ v => Fits size signed v
  | .text s => ∃ (d : DecimalNumeral) (n : Int), d.WellFormed ∧ d.Printed ∧ d.text = s ∧ d.value = n ∧ Fits size signed n ∧
      if Fits 8 true d.integerPart then n = d.integerPart else n = castInteger size signed (saturated d.integerPart)

variable {P : Platform} {b : ApplicationDataBuffer} {p : Int} {size : Nat} {signed : Bool}

theorem integer_size_pos {type : OdbcNativeType} (h : type.integer = some (size, signed)) : 0 < size := by
  cases type with
  | signedTinyint | bit | unsignedTinyint | signedShort | unsignedShort | signedLong | unsignedLong | signedBigint
  | unsignedBigint =>
    obtain ⟨rfl, -⟩ := Prod.mk.inj (Option.some.inj h)
    decide
  | _ => cases h

/-- The number that is cast. -/
def extracted (P : Platform) : IntegerSource → Int
  | .number _ v => v
  | .text s => streamInt (-9223372036854775808) 9223372036854775807 P.indeterminate s

/-- The operation casts what it gets and succeeds. -/
theorem put_source (hb : b.type.integer = some (size, signed)) (src : IntegerSource) :
    b.put P src.call = b.putNumToNumBuffer (leBytes size (extracted P src)) := by
  cases src with
  | number bytes v => exact putNum_integer hb _
  | text s =>
    have hput : b.putString P s = b.putNum P (.int 8 (extracted P (.text s))) := by
      unfold putString
      cases ht : b.type with
      | signedTinyint | bit | unsignedTinyint | signedShort | unsignedShort | signedLong | unsignedLong | signedBigint
      | unsignedBigint => rfl
      | _ =>
        rw [ht] at hb
        cases hb
    exact hput.trans (putNum_integer hb _)

theorem readInteger_put (hb : b.type.integer = some (size, signed)) (hp : b.getData = some p) (hapart : b.Apart size)
    (src : IntegerSource) (m : Memory.Mem) :
    readInteger (b.after P src.call m) p size signed = castInteger size signed (extracted P src) := by
  have hlen : b.Apart (leBytes size (extracted P src)).length := by rwa [length_leBytes]
  have hread := read_putNumToNumBuffer hp hlen m
  rw [length_leBytes, ← put_source hb src] at hread
  exact readInteger_of_read signed hread

/-- **Integers put into integers.** The cast and the extraction go unreported,
so what is stored is the integer put if and only if it fits. -/
theorem put_integer_exact_iff (hb : b.type.integer = some (size, signed)) (hp : b.getData = some p) (hapart : b.Apart size)
    (src : IntegerSource) : StoresExactly P b p size signed src ↔ FitsTarget size signed src := by
  have hpos := integer_size_pos hb
  have hvalue : (b.put P src.call).value = .ok .success := by
    rw [put_source hb, putNumToNumBuffer_eq hp]
  have hexact : StoresExactly P b p size signed src ↔ src.Is (castInteger size signed (extracted P src)) := by
    unfold StoresExactly
    simp only [hvalue, readInteger_put hb hp hapart, forall_const]
    exact exists_eq_right'
  rw [hexact]
  cases src with
  | number bytes v => exact castInteger_eq_self_iff hpos
  | text s =>
    constructor
    · rintro ⟨d, hd, hprinted, rfl, hn⟩
      rw [extracted, streamInt_text hd] at hn
      refine ⟨d, _, hd, hprinted, rfl, hn, fits_castInteger hpos signed _, ?_⟩
      by_cases h8 : Fits 8 true d.integerPart
      · rw [if_pos h8] at hn ⊢
        rw [if_pos h8]
        exact cast_integerPart hd hpos hn rfl
      · rw [if_neg h8, if_neg h8]
    · rintro ⟨d, n, hd, hprinted, rfl, hvalue, hfits, hpart⟩
      refine ⟨d, hd, hprinted, rfl, hvalue.trans (congrArg _ ?_)⟩
      rw [extracted, streamInt_text hd]
      split at hpart
      · next h8 =>
        rw [if_pos h8, ← hpart, castInteger_of_fits hfits]
      · next h8 => rw [if_neg h8, hpart]

/-- A number that fits and a text that does not. -/
theorem put_integer_exact_runs :
    let b : ApplicationDataBuffer := ⟨.signedShort, some 100, 2, some 200, 0, 0, by decide⟩
    (StoresExactly .unixOdbc b 100 2 true (.number 4 7) ↔ FitsTarget 2 true (.number 4 7)) ∧
      (StoresExactly .unixOdbc b 100 2 true (.text (ascii "70000")) ↔ FitsTarget 2 true (.text (ascii "70000"))) := by
  intro b
  have hapart : b.Apart 2 := by
    rintro p ⟨⟩ r ⟨⟩
    decide
  exact ⟨put_integer_exact_iff rfl rfl hapart _, put_integer_exact_iff rfl rfl hapart _⟩

/-- `PutInt32(65536)` into a short. -/
theorem put_integer_wraps :
    let b : ApplicationDataBuffer := ⟨.signedShort, some 100, 2, some 200, 0, 0, by decide⟩
    ¬ StoresExactly .unixOdbc b 100 2 true (.number 4 65536) := by
  intro b h
  obtain ⟨n, hn, hread⟩ := h (by decide)
  have hzero : readInteger (b.after .unixOdbc (.num (some (.int 4 65536))) fun _ => 0) 100 2 true = 0 := by decide
  exact absurd (hzero.symm.trans ((hread fun _ => 0).trans hn)) (by decide)

end ApplicationDataBuffer

end DocumentDbOdbc
