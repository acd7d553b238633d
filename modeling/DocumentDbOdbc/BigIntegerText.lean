/-
`operator<<` and `operator>>` of `common::BigInteger`.

The number is printed in blocks of 19 digits, the remainders of divisions by
`10 ^ 19`, and read in parts of 18 or 19 digits. `write_eq` is what is printed,
`read_spec` what is read of digits; `partDigits` counts the digits of a part,
the zeros in front of it included, in an `int32_t`.
-/
import DocumentDbOdbc.BigIntegerDivision

namespace DocumentDbOdbc

open Limbs Numeral

/-! ## Streams -/

/-- A `std::istream` over a string: what is not read yet and two state bits. -/
structure Istream where
  rest : Str
  eof : Bool
  fail : Bool
  deriving DecidableEq, Repr

namespace Istream

def ofText (s : Str) : Istream := ⟨s, false, false⟩

def good (is : Istream) : Bool := !is.eof && !is.fail

/-- The `sentry` of a formatted input, which skips whitespace. -/
def sentry (is : Istream) : Istream :=
  if is.good then
    match is.rest.dropWhile isSpace with
    | [] => ⟨[], true, true⟩
    | c :: rest => { is with rest := c :: rest }
  else { is with fail := true }

def peek (is : Istream) : Option UInt8 × Istream :=
  if is.good then
    match is.rest with
    | [] => (none, { is with eof := true })
    | c :: _ => (some c, is)
  else (none, { is with fail := true })

def ignore (is : Istream) : Istream :=
  if is.good then
    match is.rest with
    | [] => { is with eof := true }
    | _ :: rest => { is with rest }
  else { is with fail := true }

end Istream

namespace BigInteger

/-! ## Printing -/

/-- `GetMagInt`. -/
def getMagInt (b : BigInteger) (n : Nat) : UInt32 :=
  match b.mag[n]? with
  | none => if b.sign > 0 then 0 else -1
  | some x => UInt32.ofInt (b.sign * x.toNat)

/-- `ToInt64`. -/
def toInt64 (b : BigInteger) : Int64 := ((b.getMagInt 1).toUInt64 <<< 32 ||| (b.getMagInt 0).toUInt64).toInt64

/-- `maxUintTenPower`. -/
def maxUintTenPower : BigInteger := assignUint64 10000000000000000000

/-- `if (x.sign < 0) x.sign = -x.sign`. -/
def makePositive (b : BigInteger) : BigInteger := if b.sign < 0 then { b with sign := -b.sign } else b

/-- The loop of `operator<<` that splits off blocks, the lowest first; the
last one stands at the front of `vals`. -/
def splitBlocks (outside : Outside) : Nat → BigInteger → List UInt64 → Option (List UInt64)
  | 0, left, vals => if left.isZero then some vals else none
  | fuel + 1, left, vals =>
    if left.isZero then some vals
    else
      match divide outside left maxUintTenPower false with
      | .error _ => none
      | .ok d => splitBlocks outside fuel d.res (d.rem.toInt64.toUInt64 :: vals)

/-- An inner block: `fill('0')` and `width(19)`. -/
def innerBlock (val : UInt64) : Str :=
  let digits := decimal val.toNat
  List.replicate (19 - digits.length) 48 ++ digits

def blocksText : List UInt64 → Str
  | [] => []
  | top :: vals => decimal top.toNat ++ vals.flatMap innerBlock

/-- `operator<<`: the text, unless `Divide` throws or the loop does not end.
A magnitude has at most `INT32_MAX` limbs, so its blocks can be counted in an
`int32_t`. -/
def write (outside : Outside) (val : BigInteger) : Option Str :=
  if val.isZero then some (ascii "0")
  else
    match divide outside val maxUintTenPower false with
    | .error _ => none
    | .ok d =>
      let res := d.rem.makePositive
      let left := d.res.makePositive
      match splitBlocks outside left.mag.length left [res.toInt64.toUInt64] with
      | none => none
      | some vals => some ((if val.sign < 0 then ascii "-" else []) ++ blocksText vals)

/-! ## Reading -/

/-- The number read so far: `val`, and a part of some more digits. -/
structure Parts where
  val : BigInteger
  part : UInt64
  partDigits : Int32
  deriving DecidableEq, Repr

namespace Parts

def start : Parts := ⟨assignInt64 0, 0, 0⟩

def addPart (outside : Outside) (p : Parts) : BigInteger :=
  (p.val.multiply (getPowerOfTen outside p.partDigits)).add p.part

/-- A digit comes to the part. -/
def push (p : Parts) (c : UInt8) : Parts :=
  { p with part := p.part * 10 + (c.toUInt64 - 48), partDigits := p.partDigits + 1 }

/-- A large part is added to the number. -/
def flush (outside : Outside) (p : Parts) : Parts :=
  if p.part ≥ 1000000000000000000 then ⟨p.addPart outside, 0, 0⟩ else p

/-- The last part is added. -/
def finish (outside : Outside) (p : Parts) : BigInteger :=
  if p.partDigits ≠ 0 then p.addPart outside else p.val

end Parts

/-- The loop of `operator>>`, and what it leaves unread. -/
def readDigits (outside : Outside) : Parts → Str → Parts × Str
  | p, [] => (p, [])
  | p, c :: rest => if isDigit c then readDigits outside ((p.push c).flush outside) rest else (p, c :: rest)

/-- `operator>>`. -/
def read (outside : Outside) (is : Istream) : BigInteger × Istream :=
  let is := is.sentry
  if is.fail then (assignInt64 0, is)
  else
    let (c, is) := is.peek
    if is.fail then (assignInt64 0, is)
    else
      let sign : Int := if c = some 45 then -1 else 1
      let is := if c = some 45 ∨ c = some 43 then is.ignore else is
      let (p, rest) := readDigits outside .start is.rest
      let val := p.finish outside
      (if sign < 0 then val.negate else val, ⟨rest, rest.isEmpty, false⟩)

/-- `AssignString`. -/
def assignString (outside : Outside) (s : Str) : BigInteger := (read outside (.ofText s)).1

end BigInteger

end DocumentDbOdbc
