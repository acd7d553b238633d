/-
Strings of the driver and the helpers of `common/utils` and `common/bits`.

A `std::string` is a list of bytes. The character classes are those of the C
locale, which is the one the driver runs in (it never calls `setlocale`):
bytes from `0x80` on are neither spaces, digits nor letters.
-/
import DocumentDbOdbc.Lib.Separated
import DocumentDbOdbc.Lib.Numeral

namespace DocumentDbOdbc

/-- A `std::string`. -/
abbrev Str := List UInt8

/-- The bytes of an ASCII literal. -/
def ascii (s : String) : Str := s.toList.map fun c => UInt8.ofNat c.toNat

theorem ascii_append (s t : String) : ascii (s ++ t) = ascii s ++ ascii t := by simp [ascii]

/-- What `c_str()` shows a C function: the bytes before the first NUL. -/
def cStr (s : Str) : Str := s.takeWhile (· != 0)

/-- `isspace`. -/
def isSpace (c : UInt8) : Bool := c == 32 || (9 ≤ c && c ≤ 13)

/-- `isalnum`. -/
def isAlnum (c : UInt8) : Bool := Numeral.isDigit c || (65 ≤ c && c ≤ 90) || (97 ≤ c && c ≤ 122)

/-- `tolower`. -/
def toLowerChar (c : UInt8) : UInt8 := if 65 ≤ c && c ≤ 90 then c + 32 else c

/-- `common::ToLower`. -/
def toLower (s : Str) : Str := s.map toLowerChar

/-- `common::SpaceToUnderscore`. -/
def spaceToUnderscore (s : Str) : Str := s.map fun c => if c = 32 then 95 else c

/-- `common::StripSurroundingWhitespaces`, both the iterator and the string
version. -/
def stripSurroundingWhitespaces (s : Str) : Str := Separated.trim isSpace s

/-- `common::AllDigits`; true of the empty string. -/
def allDigits (s : Str) : Bool := s.all Numeral.isDigit

/-- `stream >> n` into a zero signed integer of largest value `max`, for a
stream that holds digits only: an overflow stores `max`, an empty stream
leaves the zero. -/
def extractDigits (max : Nat) (s : Str) : Nat := min (Numeral.numeralValue s) max

/-- `INT32_MAX`. -/
def int32Max : Nat := 2147483647

/-- `INT64_MAX`. -/
def int64Max : Nat := 9223372036854775807

/-- The text of a signed integer. -/
def intText (n : Int) : Str :=
  if n < 0 then 45 :: Numeral.decimal n.natAbs else Numeral.decimal n.natAbs

/-- What `stream >> n` leaves in a signed integer between `min` and `max`.
Nothing is stored when there is only whitespace; a text that is no number
stores zero; an overflow stores the bound. -/
def streamInt (min max indeterminate : Int) (s : Str) : Int :=
  match s.dropWhile isSpace with
  | [] => indeterminate
  | c :: rest =>
    let (negative, digits) := if c = 45 then (true, rest) else if c = 43 then (false, rest)
      else (false, c :: rest)
    let n : Int := Numeral.numeralValue (digits.takeWhile Numeral.isDigit)
    if negative then Max.max (-n) min else Min.min n max

/-- The value of a digit or letter in bases up to 36. -/
def digitValue (c : UInt8) : Option Nat :=
  if Numeral.isDigit c then some (c.toNat - 48)
  else if 97 ≤ toLowerChar c && toLowerChar c ≤ 122 then some ((toLowerChar c).toNat - 87)
  else none

/-- A digit of the base. -/
def isDigitOf (base : Nat) (c : UInt8) : Bool := (digitValue c).any (· < base)

/-- The base a numeral has by its prefix, and its digits. -/
def numeralBase : Str → Nat × Str
  | 48 :: x :: d :: s =>
    if toLowerChar x = 120 && isDigitOf 16 d then (16, d :: s) else (8, 48 :: x :: d :: s)
  | 48 :: s => (8, 48 :: s)
  | s => (10, s)

/-- `std::stoll(s, nullptr, 0)` of a C string; `none` if it throws. -/
def stoll (s : Str) : Option Int :=
  let t := (cStr s).dropWhile isSpace
  let negative := t.head? = some 45
  let (base, t) := numeralBase (if negative || t.head? = some 43 then t.tail else t)
  let digits := t.takeWhile (isDigitOf base)
  let n : Nat := digits.foldl (fun n c => n * base + (digitValue c).getD 0) 0
  let v : Int := if negative then -n else n
  if digits = [] ∨ v < -9223372036854775808 ∨ 9223372036854775807 < v then none else some v

example : stoll (ascii " -0x1f,") = some (-31) ∧ stoll (ascii "0x") = some 0 ∧ stoll (ascii "+") = none := by
  decide

/-! ## Bits -/

/-- `common::bits::NumberOfLeadingZerosU64`. -/
def numberOfLeadingZerosU64 (i : UInt64) : Nat := Id.run do
  if i = 0 then
    return 64
  let mut n := 1
  let mut x := (i >>> 32).toUInt32
  if x = 0 then
    n := n + 32
    x := i.toUInt32
  if x >>> 16 = 0 then
    n := n + 16
    x := x <<< 16
  if x >>> 24 = 0 then
    n := n + 8
    x := x <<< 8
  if x >>> 28 = 0 then
    n := n + 4
    x := x <<< 4
  if x >>> 30 = 0 then
    n := n + 2
    x := x <<< 2
  return n - (x >>> 31).toNat

/-- `common::bits::DigitLength`; the table of `TenPowerU64` has 20 entries. -/
def digitLength (x : UInt64) : Nat :=
  if x < 10 then 1
  else
    let r := ((64 - numberOfLeadingZerosU64 x + 1) * 1233) >>> 12
    if r = 20 ∨ x.toNat < 10 ^ r then r else r + 1

/-- The `n` bytes of an integer in memory, the lowest first. -/
def leBytes (n : Nat) (v : Int) : List UInt8 :=
  (List.range n).map fun i => UInt8.ofNat (v / 256 ^ i % 256).toNat

@[simp] theorem length_leBytes (n : Nat) (v : Int) : (leBytes n v).length = n := by simp [leBytes]

theorem isSpace_of_isDigit {c : UInt8} (h : Numeral.isDigit c = true) : isSpace c = false := by
  simp only [Numeral.isDigit, Bool.and_eq_true, decide_eq_true_eq, UInt8.le_iff_toNat_le] at h
  simp only [isSpace, Bool.or_eq_false_iff, beq_eq_false_iff_ne, Bool.and_eq_false_iff,
    decide_eq_false_iff_not, UInt8.le_iff_toNat_le, ne_eq, ← UInt8.toNat_inj]
  simp at h ⊢
  omega

theorem allDigits_decimal (n : Nat) : allDigits (Numeral.decimal n) = true :=
  List.all_eq_true.mpr (Numeral.isDigit_of_mem_decimal n)

theorem not_sign_of_isDigit {c : UInt8} (h : Numeral.isDigit c = true) : c ≠ 45 ∧ c ≠ 43 := by
  constructor
  · rintro rfl
    exact absurd h (by decide)
  · rintro rfl
    exact absurd h (by decide)

theorem dropWhile_isSpace_digits {s : Str} (h : allDigits s = true) : s.dropWhile isSpace = s := by
  cases s with
  | nil => rfl
  | cons c s =>
    have hc := isSpace_of_isDigit (List.all_eq_true.mp h c (List.mem_cons_self ..))
    simp [List.dropWhile, hc]

theorem streamInt_digits (min max indeterminate : Int) {s : Str} (h : allDigits s = true) (hne : s ≠ []) :
    streamInt min max indeterminate s = Min.min (Numeral.numeralValue s : Int) max := by
  have hspace := dropWhile_isSpace_digits h
  have htake : s.takeWhile Numeral.isDigit = s := by
    rw [List.takeWhile_eq_self_iff]
    exact List.all_eq_true.mp h
  cases s with
  | nil => exact absurd rfl hne
  | cons c s =>
    obtain ⟨h45, h43⟩ := not_sign_of_isDigit (List.all_eq_true.mp h c (List.mem_cons_self ..))
    simp [streamInt, hspace, h45, h43, htake]

theorem streamInt_neg (min max indeterminate : Int) {s : Str} (h : allDigits s = true) :
    streamInt min max indeterminate (45 :: s) = Max.max (-(Numeral.numeralValue s : Int)) min := by
  have htake : s.takeWhile Numeral.isDigit = s := by
    rw [List.takeWhile_eq_self_iff]
    exact List.all_eq_true.mp h
  have hspace : isSpace 45 = false := by decide
  simp [streamInt, hspace, htake]

theorem streamInt_plus (min max indeterminate : Int) {s : Str} (h : allDigits s = true) :
    streamInt min max indeterminate (43 :: s) = Min.min (Numeral.numeralValue s : Int) max := by
  have htake : s.takeWhile Numeral.isDigit = s := by
    rw [List.takeWhile_eq_self_iff]
    exact List.all_eq_true.mp h
  have hspace : isSpace 43 = false := by decide
  simp [streamInt, hspace, htake]

theorem streamInt_intText {min max : Int} (indeterminate : Int) {n : Int} (hmin : min ≤ n) (hmax : n ≤ max) :
    streamInt min max indeterminate (intText n) = n := by
  rw [intText]
  split
  · rw [streamInt_neg _ _ _ (allDigits_decimal _), Numeral.numeralValue_decimal]
    omega
  · rw [streamInt_digits _ _ _ (allDigits_decimal _) (Numeral.decimal_ne_nil _),
      Numeral.numeralValue_decimal]
    omega

/-! ## 32-bit numbers -/

section

variable {a b : Int32}

theorem toInt32_add (h : -2 ^ 31 ≤ a.toInt + b.toInt) (h' : a.toInt + b.toInt < 2 ^ 31) :
    (a + b).toInt = a.toInt + b.toInt := by
  rw [Int32.toInt_add]
  exact Int.bmod_eq_of_le (by omega) (by omega)

theorem toInt32_sub (h : -2 ^ 31 ≤ a.toInt - b.toInt) (h' : a.toInt - b.toInt < 2 ^ 31) :
    (a - b).toInt = a.toInt - b.toInt := by
  rw [Int32.toInt_sub]
  exact Int.bmod_eq_of_le (by omega) (by omega)

theorem toInt32_neg (h : -2 ^ 31 < a.toInt) : (-a).toInt = -a.toInt := by
  have hlt := a.toInt_lt
  rw [Int32.toInt_neg]
  exact Int.bmod_eq_of_le (by omega) (by omega)

/-- Without its top bit a number is that modulo `2 ^ 31`. -/
theorem toInt32_mask (a : Int32) : (a &&& 0x7FFFFFFF).toInt = a.toInt % 2 ^ 31 := by
  have hnat : (a &&& 0x7FFFFFFF).toBitVec.toNat = a.toBitVec.toNat % 2 ^ 31 := by
    rw [Int32.toBitVec_and, BitVec.toNat_and]
    exact Nat.and_two_pow_sub_one_eq_mod _ 31
  have hlt := a.toBitVec.isLt
  rw [Int32.toInt, Int32.toInt, BitVec.toInt_eq_toNat_cond, BitVec.toInt_eq_toNat_cond, hnat]
  omega

end

theorem toInt32_ofNat {n : Nat} (h : n < 2 ^ 31) : (Int32.ofNat n).toInt = n := by
  rw [Int32.toInt_ofNat']
  exact Int.bmod_eq_of_le (by simp) (by simp; omega)

end DocumentDbOdbc
