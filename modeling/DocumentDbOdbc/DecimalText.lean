/-
`operator<<` and `operator>>` of `common::Decimal`.

`Common.Decimal` is the class itself, a scale and a `BigInteger`;
`DocumentDbOdbc.Decimal` is the number it stands for in the data path. The
printer keeps positions in the text of the magnitude in `int32_t`: a conversion
to it wraps (`toInt32`), and so do the scale of the parser and its exponent.
-/
import DocumentDbOdbc.BigIntegerTextFacts

namespace DocumentDbOdbc

open Limbs Numeral

/-- `static_cast<int32_t>` of a length. -/
def toInt32 (n : Nat) : Int := (n : Int).bmod (2 ^ 32)

/-- `stream >> n` for an `int32_t` that is zero. -/
def Istream.getInt32 (is : Istream) : Int × Istream :=
  let is := is.sentry
  if is.fail then (0, is)
  else
    let n := streamInt (-2147483648) 2147483647 0 is.rest
    let s := if is.rest.head? = some 45 ∨ is.rest.head? = some 43 then is.rest.tail else is.rest
    let rest := s.dropWhile isDigit
    let overflow := int32Max < numeralValue (s.takeWhile isDigit) && n ≠ -numeralValue (s.takeWhile isDigit)
    (n, ⟨rest, rest.isEmpty, !(s.head?.any isDigit) || overflow⟩)

namespace Common

/-- `common::Decimal`. -/
structure Decimal where
  scale : Int32
  magnitude : BigInteger
  deriving DecidableEq, Repr

namespace Decimal

/-! ## Printing -/

/-- The loop that finds the last character that is not a zero, from the
character in front of the given one down. -/
def lastNonZero (magStr : Str) (magBegin : Nat) : Nat → Int
  | 0 => -1
  | i + 1 => if magBegin ≤ i ∧ magStr.getD i 0 = 48 then lastNonZero magStr magBegin i else i

/-- `os.write(&s[pos], n)`; a negative count writes nothing. -/
def writeFrom (s : Str) (pos : Nat) (n : Int) : Str := (s.drop pos).take n.toNat

/-- The text of a magnitude with a decimal point. -/
def pointText (magStr : Str) (scale : Int) : Str :=
  let negative := magStr.head? = some 45
  let magBegin := if negative then 1 else 0
  let magLen := if negative then toInt32 magStr.length - 1 else toInt32 magStr.length
  let last := toInt32 magStr.length - 1
  let lastNonZero := if last < 0 then last else lastNonZero magStr magBegin (last.toNat + 1)
  let dotPos := magLen - scale
  (if negative then ascii "-" else []) ++
    if dotPos ≤ 0 then
      ascii "0." ++ List.replicate (-dotPos).toNat 48 ++ writeFrom magStr magBegin (lastNonZero - magBegin + 1)
    else
      let afterDot := lastNonZero - dotPos - magBegin + 1
      writeFrom magStr magBegin dotPos ++
        if afterDot > 0 then ascii "." ++ writeFrom magStr (magBegin + dotPos.toNat) afterDot else []

/-- `operator<<`. -/
def write (outside : Outside) (val : Decimal) : Option Str :=
  if val.magnitude.mag = [] then some (ascii "0")
  else
    match val.magnitude.write outside with
    | none => none
    | some magStr =>
      if val.scale ≤ 0 then some (magStr ++ List.replicate (-val.scale).toInt.toNat 48)
      else some (pointText magStr val.scale.toInt)

/-! ## Reading -/

open BigInteger

/-- The loop of `operator>>`: digits and one point. The scale is -1 until the
point, and counts the point too. -/
def readNumber (outside : Outside) : Parts → Int32 → Str → Parts × Int32 × Str
  | p, scale, [] => (p, scale, [])
  | p, scale, c :: rest =>
    if isDigit c then
      readNumber outside ((p.push c).flush outside) (if scale ≥ 0 then scale + 1 else scale) rest
    else if c = 46 ∧ scale < 0 then readNumber outside (p.flush outside) (0 + 1) rest
    else (p, scale, c :: rest)

/-- The exponent, if there is one. -/
def readExponent (scale : Int32) (is : Istream) : Int32 × Istream :=
  if is.rest.head? = some 101 ∨ is.rest.head? = some 69 then
    let (exp, is) := is.ignore.getInt32
    (scale - Int32.ofInt exp, is)
  else (scale, is)

/-- `operator>>`. -/
def read (outside : Outside) (is : Istream) : Decimal × Istream :=
  let is := is.sentry
  if is.fail then (⟨0, assignInt64 0⟩, is)
  else
    let (c, is) := is.peek
    if is.fail then (⟨0, assignInt64 0⟩, is)
    else
      let sign : Int := if c = some 45 then -1 else 1
      let is := if c = some 45 ∨ c = some 43 then is.ignore else is
      let (p, scale, rest) := readNumber outside .start (-1) is.rest
      let mag := p.finish outside
      let scale := if scale < 0 then 0 else scale - 1
      let (scale, is) := readExponent scale ⟨rest, rest.isEmpty, false⟩
      (⟨scale, if sign < 0 then mag.negate else mag⟩, is)

/-- `AssignString`. -/
def assignString (outside : Outside) (s : Str) : Decimal := (read outside (.ofText s)).1

end Decimal

end Common

end DocumentDbOdbc
