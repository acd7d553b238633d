/-
The machine and the libraries under the data path.

What the standard fixes is defined here (UTF-8, decimal texts, the calendar
texts of `strftime`); what it leaves to the implementation, and arithmetic in
floating point and in `common::Decimal`, are operations of a `Platform`. A
`float` or `double` is its bit pattern. Sizes are those of a 64-bit build
without assertions.
-/
import DocumentDbOdbc.CommonUtils
import DocumentDbOdbc.Lib.Utf8

namespace DocumentDbOdbc

/-- The sizes a wide character type has. -/
inductive WcharSize where
  | two | four
  deriving DecidableEq, Repr

namespace WcharSize

def bytes : WcharSize → Nat
  | .two => 2
  | .four => 4

/-- The largest character `std::codecvt_utf8` reads into the type. -/
def maxCode : WcharSize → Nat
  | .two => 0xFFFF
  | .four => 0x10FFFF

end WcharSize

/-- A broken-down time as boost makes it: a day of its calendar, which runs
from 1400 to 9999. -/
structure Tm where
  year : Nat
  mon : Nat
  mday : Nat
  hour : Nat
  min : Nat
  sec : Nat
  year_range : 1400 ≤ year ∧ year ≤ 9999
  mon_lt : mon < 12
  mday_range : 1 ≤ mday ∧ mday ≤ 31
  hour_lt : hour < 24
  min_lt : min < 60
  sec_lt : sec < 60

namespace Tm

def twoDigits (n : Nat) : Str := [Numeral.digit (n / 10), Numeral.digit (n % 10)]

/-- `%Y-%m-%d`. -/
def dateText (t : Tm) : Str :=
  Numeral.decimal t.year ++ ascii "-" ++ twoDigits (t.mon + 1) ++ ascii "-" ++ twoDigits t.mday

/-- `%H:%M:%S`. -/
def timeText (t : Tm) : Str :=
  twoDigits t.hour ++ ascii ":" ++ twoDigits t.min ++ ascii ":" ++ twoDigits t.sec

/-- `%Y-%m-%d %H:%M:%S`. -/
def timestampText (t : Tm) : Str := t.dateText ++ ascii " " ++ t.timeText

end Tm

/-- `common::Decimal`: the value is `unscaled / 10 ^ scale`. -/
structure Decimal where
  unscaled : Int
  scale : Int
  deriving DecidableEq, Repr

/-- The operations of `common::Decimal` and `common::BigInteger` the data path
uses. -/
structure DecimalLib where
  ofText : Str → Decimal
  text : Decimal → Str
  toInt64 : Decimal → Int
  toDouble : Decimal → UInt64
  /-- The unscaled value after `SetScale(0)`. -/
  integral : Decimal → Int
  /-- `BigInteger::MagnitudeToBytes`, the highest byte first. -/
  magnitudeToBytes : Int → List UInt8
  precision : Int → Int

structure Platform where
  /-- `sizeof(SQLWCHAR)`. -/
  sqlWchar : WcharSize
  /-- `sizeof(wchar_t)`. -/
  wchar : WcharSize
  /-- Whether `std::codecvt_utf8` reads encoded surrogates. -/
  surrogates : Bool
  /-- `std::ctype<wchar_t>::narrow` with `?` as the default. -/
  narrow : Nat → UInt8
  /-- `ToGmTime`; boost throws on a time outside its calendar. -/
  toGmTime : Int → Option Tm
  /-- What `strftime` leaves in an array the text does not fit into. -/
  strftimeOverflow : (text : Str) → (max : Nat) → Str
  /-- The `i`th byte at the address a destroyed string had. -/
  freed : (text : Str) → (i : Nat) → UInt8
  /-- An `int64_t` that was declared and not assigned. -/
  indeterminate : Int
  floatText : UInt32 → Str
  doubleText : UInt64 → Str
  /-- `std::to_string(double)`. -/
  doubleToString : UInt64 → Str
  floatToInt : (bytes : Nat) → (signed : Bool) → UInt32 → Int
  doubleToInt : (bytes : Nat) → (signed : Bool) → UInt64 → Int
  floatToDouble : UInt32 → UInt64
  doubleToFloat : UInt64 → UInt32
  intToFloat : Int → UInt32
  intToDouble : Int → UInt64
  floatNegative : UInt32 → Bool
  doubleNegative : UInt64 → Bool
  /-- `-x`. -/
  floatNeg : UInt32 → UInt32
  doubleNeg : UInt64 → UInt64
  /-- `x > n`, `x < n` and `x != 0`. -/
  doubleGt : UInt64 → Int → Bool
  doubleLt : UInt64 → Int → Bool
  doubleNonzero : UInt64 → Bool
  /-- `stream >> x`. -/
  streamDouble : Str → UInt64
  /-- `std::stof` and `std::stod`; `none` if they throw. -/
  stof : Str → Option UInt32
  stod : Str → Option UInt64
  decimal : DecimalLib

namespace Platform

variable (P : Platform)

/-- `w` bytes wide, for the character type of the driver manager. -/
def wcharBytes : Nat := P.sqlWchar.bytes

/-- Read one character into a type of the given width. -/
def nextChar (w : WcharSize) : List UInt8 → Option (Nat × List UInt8) := Utf8.next w.maxCode P.surrogates

/-- `wstring_convert::from_bytes`, on a C string; `none` if it throws. -/
def fromBytes (s : Str) : Option (List Nat) :=
  let (chars, complete) := Utf8.decode (P.nextChar P.wchar) (cStr s).length (cStr s)
  if complete then some chars else none

/-- `codecvt_utf8::in` from a C string into `n` characters: those converted,
and whether the whole string was. -/
def convertIn (s : Str) (n : Nat) : List Nat × Bool := Utf8.decode (P.nextChar P.sqlWchar) n (cStr s)

/-- The bytes `strftime(array, max, …)` stores, for the text of its format. -/
def strftime (text : Str) (max : Nat) : Str :=
  if text.length + 1 ≤ max then text ++ [0] else (P.strftimeOverflow text max).take max

theorem wcharBytes_range : P.wcharBytes = 2 ∨ P.wcharBytes = 4 := by
  cases h : P.sqlWchar <;> simp [wcharBytes, WcharSize.bytes, h]

theorem length_strftime_le (text : Str) (max : Nat) : (P.strftime text max).length ≤ max := by
  rw [strftime]
  split
  · simpa
  · simp

end Platform

/-! ## The calendar texts -/

/-- A character of ASCII other than NUL. -/
def isPlainChar (c : UInt8) : Bool := 0 < c && c < 0x80

theorem lt_of_isPlainChar {c : UInt8} (h : isPlainChar c = true) : 0 < c.toNat ∧ c.toNat < 128 := by
  simpa [isPlainChar, UInt8.lt_iff_toNat_lt] using h

theorem cStr_plain {text : Str} (h : ∀ c ∈ text, isPlainChar c = true) : cStr text = text := by
  rw [cStr, List.takeWhile_eq_self_iff]
  intro c hc
  have hpos := (lt_of_isPlainChar (h c hc)).1
  rw [bne_iff_ne]
  rintro rfl
  exact absurd hpos (by decide)

theorem isPlainChar_of_isDigit {c : UInt8} (h : Numeral.isDigit c = true) : isPlainChar c = true := by
  simp only [Numeral.isDigit, isPlainChar, Bool.and_eq_true, decide_eq_true_eq,
    UInt8.le_iff_toNat_le, UInt8.lt_iff_toNat_lt] at h ⊢
  simp at h ⊢
  omega

namespace Tm

theorem length_dateText (t : Tm) : t.dateText.length = 10 := by
  have hy : (Numeral.decimal t.year).length = 4 := by
    obtain ⟨h1, h2⟩ := t.year_range
    refine Nat.le_antisymm (Numeral.length_decimal_le (k := 3) (by omega)) ?_
    rw [Numeral.decimal_of_ge (by omega), Numeral.decimal_of_ge (by omega), Numeral.decimal_of_ge (by omega)]
    simp only [List.length_append, List.length_singleton]
    have := List.length_pos_of_ne_nil (Numeral.decimal_ne_nil (t.year / 10 / 10 / 10))
    omega
  simp [dateText, twoDigits, ascii, hy]

theorem length_timeText (t : Tm) : t.timeText.length = 8 := by simp [timeText, twoDigits, ascii]

theorem isPlainChar_digit {d : Nat} (h : d < 10) : isPlainChar (Numeral.digit d) = true := by
  interval_cases d <;> rfl

theorem isPlainChar_twoDigits {n : Nat} (h : n < 100) : ∀ c ∈ twoDigits n, isPlainChar c = true := by
  simp only [twoDigits, List.mem_cons, List.not_mem_nil, or_false, forall_eq_or_imp, forall_eq]
  exact ⟨isPlainChar_digit (by omega), isPlainChar_digit (by omega)⟩

theorem isPlainChar_dateText (t : Tm) : ∀ c ∈ t.dateText, isPlainChar c = true := by
  have hyear : ∀ c ∈ Numeral.decimal t.year, isPlainChar c = true := fun c hc =>
    isPlainChar_of_isDigit (Numeral.isDigit_of_mem_decimal _ c hc)
  have hdash : ∀ c ∈ ascii "-", isPlainChar c = true := List.all_eq_true.mp (by decide)
  have hmon := isPlainChar_twoDigits (n := t.mon + 1) (by have := t.mon_lt; omega)
  have hday := isPlainChar_twoDigits (n := t.mday) (by have := t.mday_range; omega)
  intro c hc
  simp only [dateText, List.mem_append] at hc
  rcases hc with (((hc | hc) | hc) | hc) | hc
  · exact hyear c hc
  · exact hdash c hc
  · exact hmon c hc
  · exact hdash c hc
  · exact hday c hc

theorem isPlainChar_timeText (t : Tm) : ∀ c ∈ t.timeText, isPlainChar c = true := by
  have hcolon : ∀ c ∈ ascii ":", isPlainChar c = true := List.all_eq_true.mp (by decide)
  have hhour := isPlainChar_twoDigits (n := t.hour) (by have := t.hour_lt; omega)
  have hmin := isPlainChar_twoDigits (n := t.min) (by have := t.min_lt; omega)
  have hsec := isPlainChar_twoDigits (n := t.sec) (by have := t.sec_lt; omega)
  intro c hc
  simp only [timeText, List.mem_append] at hc
  rcases hc with (((hc | hc) | hc) | hc) | hc
  · exact hhour c hc
  · exact hcolon c hc
  · exact hmin c hc
  · exact hcolon c hc
  · exact hsec c hc

theorem isPlainChar_timestampText (t : Tm) : ∀ c ∈ t.timestampText, isPlainChar c = true := by
  have hblank : ∀ c ∈ ascii " ", isPlainChar c = true := List.all_eq_true.mp (by decide)
  intro c hc
  simp only [timestampText, List.mem_append] at hc
  rcases hc with (hc | hc) | hc
  · exact t.isPlainChar_dateText c hc
  · exact hblank c hc
  · exact t.isPlainChar_timeText c hc

theorem length_timestampText (t : Tm) : t.timestampText.length = 19 := by
  simp [timestampText, ascii, length_dateText, length_timeText]

end Tm

/-! ## A platform -/

/-- The broken-down time of the seconds since 1970 in the Gregorian calendar.
Days are counted from the first of March, so that a leap day ends its year. -/
def Tm.ofSeconds (s : Int) : Option Tm :=
  let day := s / 86400 + 719468
  let second := (s % 86400).toNat
  let dayOfEra := (day % 146097).toNat
  let yearOfEra := (dayOfEra - dayOfEra / 1460 + dayOfEra / 36524 - dayOfEra / 146096) / 365
  let dayOfYear := dayOfEra - (365 * yearOfEra + yearOfEra / 4 - yearOfEra / 100)
  let march := (5 * dayOfYear + 2) / 153
  let mday := dayOfYear - (153 * march + 2) / 5 + 1
  let mon := (march + 2) % 12
  let year := (day / 146097 * 400).toNat + yearOfEra + (if march < 10 then 0 else 1)
  if h : (1400 ≤ year ∧ year ≤ 9999) ∧ mon < 12 ∧ (1 ≤ mday ∧ mday ≤ 31) ∧ second / 3600 < 24 then
    some ⟨year, mon, mday, second / 3600, second / 60 % 60, second % 60, h.1, h.2.1, h.2.2.1, h.2.2.2,
      Nat.mod_lt _ (by decide), Nat.mod_lt _ (by decide)⟩
  else none

example : (Tm.ofSeconds 951782400).map Tm.dateText = some (ascii "2000-02-29") := by decide +kernel

/-- Linux with unixODBC, for cases without floating point and decimals: their
operations are constant. -/
def Platform.unixOdbc : Platform where
  sqlWchar := .two
  wchar := .four
  surrogates := false
  narrow c := if c < 0x80 then .ofNat c else 0x3F
  toGmTime := Tm.ofSeconds
  strftimeOverflow text max := text.take max
  freed _ _ := 0
  indeterminate := 0
  floatText _ := ascii "0"
  doubleText _ := ascii "0"
  doubleToString _ := ascii "0"
  floatToInt _ _ _ := 0
  doubleToInt _ _ _ := 0
  floatToDouble _ := 0
  doubleToFloat _ := 0
  intToFloat _ := 0
  intToDouble _ := 0
  floatNegative _ := false
  doubleNegative _ := false
  floatNeg _ := 0
  doubleNeg _ := 0
  doubleGt _ _ := false
  doubleLt _ _ := false
  doubleNonzero _ := false
  streamDouble _ := 0
  stof _ := none
  stod _ := none
  decimal := {
    ofText _ := ⟨0, 0⟩
    text _ := ascii "0"
    toInt64 _ := 0
    toDouble _ := 0
    integral _ := 0
    magnitudeToBytes _ := []
    precision _ := 0 }

end DocumentDbOdbc
