/-
`common::BigInteger`: a sign and a magnitude of 32-bit limbs, the lowest first.

Limbs are `UInt32`; the 64-bit temporaries of the source, none of which
overflows, are natural numbers and integers. A loop over the limbs of an array
is a recursion over the list. What the code reads outside its arrays is a
parameter (`Outside`).
-/
import DocumentDbOdbc.CommonUtils
import DocumentDbOdbc.Lib.Limbs

namespace DocumentDbOdbc

/-! ## Bits -/

/-- A step of `NumberOfLeadingZerosU32`: `k` leading zeros are counted and
shifted out. -/
def skipZeros (k : UInt32) : Nat × UInt32 → Nat × UInt32
  | (n, i) => if i >>> (32 - k) = 0 then (n + k.toNat, i <<< k) else (n, i)

/-- `bits::NumberOfLeadingZerosU32`. -/
def numberOfLeadingZerosU32 (i : UInt32) : Nat :=
  if i = 0 then 32
  else
    let (n, i) := skipZeros 2 (skipZeros 4 (skipZeros 8 (skipZeros 16 (1, i))))
    n - (i >>> 31).toNat

/-- `bits::BitLengthU32`. -/
def bitLengthU32 (i : UInt32) : Nat := 32 - numberOfLeadingZerosU32 i

/-- The words next to the arrays. `Divide` reads in front of `nv` and `nu` when
the divisor has one limb, for `nv[vlen - 2]` and, in the last round,
`nu[i + vlen - 2]`; `TenPowerU64` reads its table at any index. -/
structure Outside where
  nv : UInt32
  nu : UInt32
  tenPowers : Int32 → UInt64

def Outside.zeros : Outside := ⟨0, 0, fun _ => 0⟩

/-- `bits::TenPowerU64`: a table of 20 entries. -/
def tenPowerU64 (outside : Outside) (n : Int32) : UInt64 :=
  if 0 ≤ n ∧ n < 20 then UInt64.ofNat (10 ^ n.toInt.toNat) else outside.tenPowers n

/-- `BigInteger::MagArray`. -/
abbrev MagArray := List UInt32

structure BigInteger where
  sign : Int
  mag : MagArray
  deriving DecidableEq, Repr

/-- What `BigInteger` throws. -/
inductive DocumentDbError where
  | illegalArgument (msg : Str)
  deriving DecidableEq, Repr

namespace BigInteger

/-- `BigInteger()`. -/
def zero : BigInteger := ⟨1, []⟩

def isZero (b : BigInteger) : Bool := b.mag.length = 0

def isNegative (b : BigInteger) : Bool := b.sign < 0

/-- `Negate`. -/
def negate (b : BigInteger) : BigInteger := if !b.isZero then { b with sign := -b.sign } else b

/-- `Normalize`. -/
def normalize (b : BigInteger) : BigInteger := { b with mag := Limbs.trim b.mag }

/-! ## Construction -/

/-- `AssignUint64`. -/
def assignUint64 (val : UInt64) : BigInteger :=
  if val = 0 then ⟨1, []⟩
  else
    let highWord := (val >>> 32).toUInt32
    if highWord = 0 then ⟨1, [val.toUInt32]⟩ else ⟨1, [val.toUInt32, highWord]⟩

/-- `AssignInt64`; `-val` wraps for the least value, which is then its own
magnitude. -/
def assignInt64 (val : Int64) : BigInteger :=
  if val < 0 then { assignUint64 (-val).toUInt64 with sign := -1 } else assignUint64 val.toUInt64

/-- The limbs of bytes, the lowest byte first; the last limb may have fewer
than four. -/
def limbsOfBytes : List UInt8 → MagArray
  | [] => []
  | [b₀] => [b₀.toUInt32]
  | [b₀, b₁] => [b₀.toUInt32 ||| b₁.toUInt32 <<< 8]
  | [b₀, b₁, b₂] => [b₀.toUInt32 ||| b₁.toUInt32 <<< 8 ||| b₂.toUInt32 <<< 16]
  | b₀ :: b₁ :: b₂ :: b₃ :: bytes =>
    (b₀.toUInt32 ||| b₁.toUInt32 <<< 8 ||| b₂.toUInt32 <<< 16 ||| b₃.toUInt32 <<< 24) :: limbsOfBytes bytes

/-- `BigInteger(val, len, sign, bigEndian)`: zero bytes at the high end are
skipped. -/
def ofBytes (val : List UInt8) (sign : Int) (bigEndian : Bool) : BigInteger :=
  let bytes := if bigEndian then (val.dropWhile (· == 0)).reverse else val.rdropWhile (· == 0)
  if bytes = [] then assignInt64 0 else ⟨sign, limbsOfBytes bytes⟩

/-! ## Comparison -/

/-- The loop of `Compare`, on the limbs from the highest down. -/
def compareFromTop (mgt : Int) : MagArray → MagArray → Int
  | x :: xs, y :: ys => if x = y then compareFromTop mgt xs ys else if y < x then mgt else -mgt
  | _, _ => 0

/-- `Compare`. -/
def compare (b other : BigInteger) (ignoreSign : Bool) : Int :=
  if !ignoreSign && b.sign != other.sign then (if b.sign > other.sign then 1 else -1)
  else
    let mgt := if ignoreSign then 1 else b.sign
    if b.mag.length ≠ other.mag.length then (if b.mag.length > other.mag.length then mgt else -mgt)
    else compareFromTop mgt b.mag.reverse other.mag.reverse

/-- `GetBitLength`. -/
def getBitLength (b : BigInteger) : UInt32 :=
  match b.mag.getLast? with
  | none => 0
  | some top => UInt32.ofNat (bitLengthU32 top + (b.mag.length - 1) * 32)

/-! ## Addition -/

/-- `common::Add(res, addend, len)` on as many limbs of `res`: the sum and the
carry. -/
def addArray (carry : Nat) : MagArray → MagArray → MagArray × Nat
  | r :: res, a :: addend =>
    let sum := r.toNat + a.toNat + carry
    let (res, carry) := addArray (sum / 2 ^ 32) res addend
    (UInt32.ofNat sum :: res, carry)
  | res, _ => (res, carry)

/-- `common::Add(res, len, addend)`. -/
def addCarry (carry : Nat) : MagArray → MagArray × Nat
  | [] => ([], carry)
  | r :: res =>
    if carry = 0 then (r :: res, carry)
    else
      let sum := r.toNat + carry
      let (res, carry) := addCarry (sum / 2 ^ 32) res
      (UInt32.ofNat sum :: res, carry)

/-- `Add(addend, len)`. -/
def addMagnitude (b : BigInteger) (addend : MagArray) : BigInteger :=
  let mag := b.mag ++ List.replicate (addend.length - b.mag.length) 0
  let (low, carry) := addArray 0 (mag.take addend.length) addend
  let high := mag.drop addend.length
  if carry = 0 then { b with mag := low ++ high }
  else
    let (high, carry) := addCarry carry high
    { b with mag := low ++ high ++ if carry = 0 then [] else [UInt32.ofNat carry] }

/-- `Add(x)`. -/
def add (b : BigInteger) (x : UInt64) : BigInteger :=
  if x = 0 then b
  else if b.isZero then assignUint64 x
  else
    let high := (x >>> 32).toUInt32
    b.addMagnitude (if high ≠ 0 then [x.toUInt32, high] else [x.toUInt32])

/-! ## Multiplication -/

/-- The inner loop of `Multiply`, and the carry it leaves in the limb behind. -/
def multiplyRow (x : UInt32) (carry : Nat) : MagArray → MagArray → MagArray
  | m :: mag, r :: res =>
    let product := m.toNat * x.toNat + r.toNat + carry
    UInt32.ofNat product :: multiplyRow x (product / 2 ^ 32) mag res
  | [], _ :: res => UInt32.ofNat carry :: res
  | _, [] => []

/-- The outer loop: row `i` starts at limb `i`, which is final after it. -/
def multiplyRows (mag : MagArray) : MagArray → MagArray → MagArray
  | x :: other, res =>
    match multiplyRow x 0 mag res with
    | r :: res => r :: multiplyRows mag other res
    | [] => []
  | [], res => res

/-- `Multiply`. -/
def multiply (b other : BigInteger) : BigInteger :=
  normalize ⟨b.sign * other.sign,
    multiplyRows b.mag other.mag (List.replicate (b.mag.length + other.mag.length) 0)⟩

/-- The loop of `Pow`; an exponent has at most 31 bits. -/
def powLoop : Nat → Nat → BigInteger → BigInteger → BigInteger
  | 0, _, b, _ => b
  | fuel + 1, mutExp, b, multiplicant =>
    if mutExp = 0 then b
    else
      let b := if mutExp % 2 = 1 then b.multiply multiplicant else b
      let mutExp := mutExp / 2
      powLoop fuel mutExp b (if mutExp ≠ 0 then multiplicant.multiply multiplicant else multiplicant)

/-- `Pow`. -/
def pow (b : BigInteger) (exp : Int32) : BigInteger :=
  if exp < 0 then assignInt64 0
  else if b.getBitLength = 0 then b
  else if b.getBitLength = 1 then
    if exp % 2 = 0 ∧ b.sign < 0 then { b with sign := -b.sign } else b
  else powLoop 31 exp.toInt.toNat (assignInt64 1) b

/-- `GetPowerOfTen`. -/
def getPowerOfTen (outside : Outside) (pow : Int32) : BigInteger :=
  if pow < 20 then assignUint64 (tenPowerU64 outside pow) else (assignInt64 10).pow pow

/-- `GetPrecision`: the bit length times the logarithm of two, and one power of
ten to compare with. -/
def getPrecision (outside : Outside) (b : BigInteger) : Int32 :=
  if b.mag.length = 0 then 1
  else
    let r := (((b.getBitLength.toUInt64 + 1) * 646456993) >>> 31).toUInt32.toInt32
    if b.compare (getPowerOfTen outside r) true < 0 then r else r + 1

/-! ## Division -/

/-- `a[i - 1]`. -/
def wordBelow (outside : UInt32) (a : MagArray) : Nat → UInt32
  | 0 => outside
  | i + 1 => a.getD i 0

/-- The loop of `ShiftLeft`, with the limb below the first. -/
def shiftLeftFrom (n : UInt32) (below : UInt32) : MagArray → MagArray
  | [] => []
  | x :: l => (x <<< n ||| below >>> (32 - n)) :: shiftLeftFrom n x l

/-- `ShiftLeft`. -/
def shiftLeft (l : MagArray) (n : UInt32) : MagArray :=
  if n = 0 then l
  else
    match l with
    | [] => []
    | x :: l => x <<< n :: shiftLeftFrom n x l

/-- The loop of `ShiftRight`. -/
def shiftRightLoop (n : UInt32) : MagArray → MagArray
  | [] => []
  | [x] => [x >>> n]
  | x :: y :: l => (x >>> n ||| y <<< (32 - n)) :: shiftRightLoop n (y :: l)

/-- `ShiftRight`. -/
def shiftRight (l : MagArray) (n : UInt32) : MagArray := if n = 0 then l else shiftRightLoop n l

/-- `MultiplyAndSubstruct`: the limbs of `q - a * x` and the carry. -/
def multiplyAndSubstruct (x : UInt32) (carry : Int) : MagArray → MagArray → MagArray × Int
  | q :: qs, a :: as =>
    let product := a.toNat * x.toNat
    let difference : Int := q.toNat - carry - (product % 2 ^ 32 : Nat)
    let (qs, carry) := multiplyAndSubstruct x ((product / 2 ^ 32 : Nat) - difference / 2 ^ 32) qs as
    (UInt32.ofInt difference :: qs, carry)
  | qs, _ => (qs, carry)

/-- The loop that adjusts the estimated quotient. The top limb `v₁` of the
shifted divisor is at least `2 ^ 31`, so `rhat` passes `UINT32_MAX` by the
second decrement. -/
def adjustQuotient (v₁ v₀ w₀ : UInt32) : Nat → Nat → Nat → Nat
  | 0, qhat, _ => qhat
  | fuel + 1, qhat, rhat =>
    if qhat > 2 ^ 32 - 1 ∨ qhat * v₀.toNat > 2 ^ 32 * rhat + w₀.toNat then
      let rhat := rhat + v₁.toNat
      if rhat > 2 ^ 32 - 1 then qhat - 1 else adjustQuotient v₁ v₀ w₀ fuel (qhat - 1) rhat
    else qhat

/-- The digit round `i` of the main loop estimates: the two leading limbs over
the leading limb, adjusted. -/
def estimate (outside : Outside) (nv nu : MagArray) (i : Nat) : Nat :=
  let vlen := nv.length
  let v₁ := nv.getD (vlen - 1) 0
  let base := (nu.getD (i + vlen) 0).toNat * 2 ^ 32 + (nu.getD (i + vlen - 1) 0).toNat
  adjustQuotient v₁ (wordBelow outside.nv nv (vlen - 1)) (wordBelow outside.nu nu (i + vlen - 1)) 2
    (base / v₁.toNat) (base % v₁.toNat)

/-- One round of the main loop of `Divide`: the array `nu` and the digit. -/
def divideRound (outside : Outside) (nv nu : MagArray) (i : Nat) : MagArray × UInt32 :=
  let vlen := nv.length
  let qhat32 := UInt32.ofNat (estimate outside nv nu i)
  let (window, carry) := multiplyAndSubstruct qhat32 0 ((nu.drop i).take vlen) nv
  -- The subtraction is of 32-bit words; only its result is widened.
  let difference : Int := (nu.getD (i + vlen) 0 - UInt32.ofInt carry).toNat
  let high := nu.drop (i + vlen + 1)
  if difference < 0 then
    (nu.take i ++ (addArray 0 window nv).1 ++ UInt32.ofInt difference :: high, qhat32 - 1)
  else (nu.take i ++ window ++ UInt32.ofInt difference :: high, qhat32)

/-- The main loop, for the rounds below `i`: the limbs of the quotient and
what is left in `nu`. -/
def divideLoop (outside : Outside) (nv : MagArray) : Nat → MagArray → MagArray → MagArray × MagArray
  | 0, nu, q => (q, nu)
  | i + 1, nu, q =>
    let (nu, digit) := divideRound outside nv nu i
    divideLoop outside nv i nu (digit :: q)

/-- Algorithm D: quotient and remainder, with zeros at their tops. -/
def divideMagnitude (outside : Outside) (u v : MagArray) : MagArray × MagArray :=
  let shift := UInt32.ofNat (numberOfLeadingZerosU32 (v.getLastD 0))
  let nv := shiftLeft v shift
  let nu :=
    if UInt32.ofNat (numberOfLeadingZerosU32 (u.getLastD 0)) ≥ shift then shiftLeft u shift ++ [0]
    else shiftLeft u shift ++ [u.getLastD 0 >>> (32 - shift), 0]
  let (q, nu) := divideLoop outside nv (u.length - v.length + 1) nu []
  (q, shiftRight (nu.take v.length) shift)

/-- The first two limbs as a `uint64_t`. -/
def lowUint64 : MagArray → Nat
  | [] => 0
  | [x] => x.toNat
  | x :: y :: _ => x.toNat + y.toNat * 2 ^ 32

/-- What `Divide` assigns. `resLast` tells whether `res` is assigned after
`rem`, which decides what is left when both are the same object. -/
structure Division where
  res : BigInteger
  rem : BigInteger
  resLast : Bool
  deriving DecidableEq, Repr

/-- `Divide`, where `res` may be the divisor itself: with a divisor of one bit
the sign of the divisor is read after `res` was assigned. -/
def divide (outside : Outside) (b divisor : BigInteger) (resIsDivisor : Bool) : Except DocumentDbError Division :=
  if divisor.mag = [] then .error (.illegalArgument (ascii "Division by zero."))
  else
    let compRes := b.compare divisor true
    let resSign := b.sign * divisor.sign
    if compRes = 0 then .ok ⟨assignInt64 (Int64.ofInt resSign), assignInt64 0, false⟩
    else if compRes = -1 then .ok ⟨assignInt64 0, b, true⟩
    else if divisor.getBitLength = 1 then
      let divisorSign := if resIsDivisor then b.sign else divisor.sign
      .ok ⟨{ b with sign := b.sign * divisorSign }, assignInt64 0, false⟩
    else if b.mag.length ≤ 2 then
      let u := lowUint64 b.mag
      let v := lowUint64 divisor.mag
      .ok ⟨assignInt64 (Int64.ofInt (resSign * (u / v : Nat))),
        assignInt64 (Int64.ofInt (resSign * (u % v : Nat))), false⟩
    else
      let (q, r) := divideMagnitude outside b.mag divisor.mag
      .ok ⟨normalize ⟨resSign, q⟩, normalize ⟨resSign, r⟩, false⟩

end BigInteger

end DocumentDbOdbc
