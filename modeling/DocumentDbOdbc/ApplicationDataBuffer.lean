/-
`app::ApplicationDataBuffer`: values put into memory the application bound.

A `Put` returns the stores it makes, in order, and its conversion result. A
store names its place relative to the bound data or to the indicator, so what
a `Put` does does not depend on where the application's arrays are; `resolve`
says where the place is, with the offsets of a row applied.
-/
import DocumentDbOdbc.Platform
import DocumentDbOdbc.Lib.Effect
import DocumentDbOdbc.Lib.Memory

namespace DocumentDbOdbc

open Effect

/-- `type_traits::OdbcNativeType::Type`. -/
inductive OdbcNativeType where
  | char | wchar | signedShort | unsignedShort | signedLong | unsignedLong | float | double | bit
  | signedTinyint | unsignedTinyint | signedBigint | unsignedBigint | binary | tdate | ttime
  | ttimestamp | numeric | guid | default | unsupported
  deriving DecidableEq, Repr

/-- `app::ConversionResult::Type`. -/
inductive ConversionResult where
  | success | fractionalTruncated | varlenDataTruncated | unsupportedConversion | indicatorNeeded
  | noData | failure
  deriving DecidableEq, Repr

/-- What ends a function before it returns: an exception, or a use of a null
pointer or of an element past the end of a vector. -/
inductive Fault where
  | exception | nullPointer | outOfRange
  deriving DecidableEq, Repr

/-- The two places a bound column has. -/
inductive Region where
  | data | indicator
  deriving DecidableEq, Repr

/-- Bytes stored at an offset from the start of a region. -/
structure Store where
  region : Region
  offset : Nat
  bytes : List UInt8
  deriving DecidableEq, Repr

/-- Addresses are integers; a null pointer is `none`. The length is an
`SqlLen`. -/
structure ApplicationDataBuffer where
  type : OdbcNativeType
  buffer : Option Int
  buflen : Int
  reslen : Option Int
  byteOffset : Int := 0
  elementOffset : Nat := 0
  buflen_range : -9223372036854775808 ≤ buflen ∧ buflen ≤ 9223372036854775807
  deriving DecidableEq, Repr

/-- A number as `PutNum` gets it: a signed integer of some bytes, a `float` or
a `double`. -/
inductive Num where
  | int (bytes : Nat) (v : Int)
  | float (bits : UInt32)
  | double (bits : UInt64)
  deriving DecidableEq, Repr

/-- `Timestamp`. -/
structure Timestamp where
  seconds : Int
  fractionNs : Int
  deriving DecidableEq, Repr

/-- `Timestamp(ms)`. -/
def Timestamp.ofMilliseconds (ms : Int) : Timestamp := ⟨ms.tdiv 1000, ms.tmod 1000 * 1000000⟩

/-- `Guid`, by its two halves. -/
structure Guid where
  most : UInt64
  least : UInt64
  deriving DecidableEq, Repr

/-- `static_cast<size_t>`. -/
def sizeT (x : Int) : Nat := (x % 18446744073709551616).toNat

/-- `static_cast<int32_t>` of a `size_t`. -/
def int32Cast (n : Nat) : Int := (n : Int).bmod 4294967296

/-- `n` digits in base 16, in lower case. -/
def hexDigits (n : Nat) (v : Nat) : Str :=
  (List.range n).reverse.map fun i => UInt8.ofNat (Nat.digitChar (v / 16 ^ i % 16)).toNat

/-- Two hexadecimal digits a byte. -/
def hexText (data : Str) : Str := data.flatMap fun c => hexDigits 2 c.toNat

/-- `std::ostream << Guid`. -/
def Guid.text (g : Guid) : Str :=
  hexDigits 8 (g.most >>> 32).toNat ++ ascii "-" ++ hexDigits 4 (g.most >>> 16).toNat ++ ascii "-" ++
    hexDigits 4 g.most.toNat ++ ascii "-" ++ hexDigits 4 (g.least >>> 48).toNat ++ ascii "-" ++
    hexDigits 12 g.least.toNat

namespace Num

variable (P : Platform)

/-- `sizeof(value)`. -/
def size : Num → Nat
  | .int bytes _ => bytes
  | .float _ => 4
  | .double _ => 8

/-- `std::ostream << value`, an `int8_t` as a number. -/
def text : Num → Str
  | .int _ v => intText v
  | .float x => P.floatText x
  | .double x => P.doubleText x

/-- The object in memory. -/
def bytes : Num → List UInt8
  | .int n v => leBytes n v
  | .float x => leBytes 4 x.toNat
  | .double x => leBytes 8 x.toNat

/-- `static_cast` to an integer type. -/
def toInt (size : Nat) (signed : Bool) : Num → Int
  | .int _ v => v
  | .float x => P.floatToInt size signed x
  | .double x => P.doubleToInt size signed x

def toFloat : Num → UInt32
  | .int _ v => P.intToFloat v
  | .float x => x
  | .double x => P.doubleToFloat x

def toDouble : Num → UInt64
  | .int _ v => P.intToDouble v
  | .float x => P.floatToDouble x
  | .double x => x

/-- `value < 0`. -/
def negative : Num → Bool
  | .int _ v => v < 0
  | .float x => P.floatNegative x
  | .double x => P.doubleNegative x

/-- `static_cast<uint64_t>(value < 0 ? -value : value)`. -/
def magnitude : Num → UInt64
  | .int _ v => .ofNat v.natAbs
  | .float x => .ofInt (P.floatToInt 8 false (if P.floatNegative x then P.floatNeg x else x))
  | .double x => .ofInt (P.doubleToInt 8 false (if P.doubleNegative x then P.doubleNeg x else x))

end Num

/-- What a `Put` does and returns. -/
abbrev Put := Eff Store Fault ConversionResult

namespace ApplicationDataBuffer

/-! ## Places -/

def getElementSize (b : ApplicationDataBuffer) : Int :=
  match b.type with
  | .wchar | .char | .binary => b.buflen
  | .signedShort | .unsignedShort => 2
  | .signedLong | .unsignedLong => 4
  | .float => 4
  | .double => 8
  | .signedTinyint | .bit | .unsignedTinyint => 1
  | .signedBigint | .unsignedBigint => 8
  | .tdate => 6
  | .ttime => 6
  | .ttimestamp => 16
  | .numeric => 19
  | .guid => 16
  | .default | .unsupported => 0

def applyOffset (b : ApplicationDataBuffer) (ptr : Option Int) (elemSize : Int) : Option Int :=
  ptr.map (· + (b.byteOffset + elemSize * b.elementOffset))

def getData (b : ApplicationDataBuffer) : Option Int := b.applyOffset b.buffer b.getElementSize

/-- `GetResLen`; an indicator has eight bytes. -/
def getResLen (b : ApplicationDataBuffer) : Option Int := b.applyOffset b.reslen 8

/-- Where a store goes; none through a null pointer. -/
def resolve (b : ApplicationDataBuffer) (s : Store) : Option Memory.Write :=
  match s.region with
  | .data => b.getData.map fun p => ⟨p + s.offset, s.bytes⟩
  | .indicator => b.getResLen.map fun p => ⟨p + s.offset, s.bytes⟩

/-! ## Stores -/

/-- `if (resLenPtr) *resLenPtr = n`. -/
def storeLen (b : ApplicationDataBuffer) (n : Int) : Eff Store Fault Unit :=
  if b.reslen.isSome then emit ⟨.indicator, 0, leBytes 8 n⟩ else pure ()

/-- A store through the data pointer. -/
def storeData (b : ApplicationDataBuffer) (offset : Nat) (bytes : List UInt8) : Eff Store Fault Unit :=
  if b.buffer.isSome then emit ⟨.data, offset, bytes⟩ else raise .nullPointer

/-- Stores the caller makes only if the data pointer is not null. -/
def ifData (b : ApplicationDataBuffer) (x : Eff Store Fault Unit) : Eff Store Fault Unit :=
  if b.buffer.isSome then x else pure ()

/-- The fields of `SQL_DATE_STRUCT`. -/
def storeDate (b : ApplicationDataBuffer) (t : Tm) : Eff Store Fault Unit := do
  b.storeData 0 (leBytes 2 t.year)
  b.storeData 2 (leBytes 2 (t.mon + 1))
  b.storeData 4 (leBytes 2 t.mday)

/-- The fields of `SQL_TIME_STRUCT`, `at_` bytes into the object. -/
def storeTime (b : ApplicationDataBuffer) (at_ : Nat) (t : Tm) : Eff Store Fault Unit := do
  b.storeData at_ (leBytes 2 t.hour)
  b.storeData (at_ + 2) (leBytes 2 t.min)
  b.storeData (at_ + 4) (leBytes 2 t.sec)

/-- The fields of `SQL_TIMESTAMP_STRUCT`. -/
def storeTimestamp (b : ApplicationDataBuffer) (t : Tm) (fraction : Int) : Eff Store Fault Unit := do
  b.storeDate t
  b.storeTime 6 t
  b.storeData 12 (leBytes 4 fraction)

variable (P : Platform)

/-! ## Strings -/

/-- `PutStrToStrBuffer<char>`, with `CopyUtf8StringToSqlCharString`. -/
def putStrToCharBuffer (b : ApplicationDataBuffer) (value : Str) : Put :=
  if b.buffer.isNone then pure .success
  else if b.buflen < 1 then pure .varlenDataTruncated
  else
    match P.fromBytes value with
    | none => raise .exception
    | some chars => do
      let n := min chars.length (sizeT b.buflen - 1)
      b.storeData 0 ((chars.take n).map P.narrow)
      b.storeData n [0]
      b.storeLen (int32Cast n)
      pure (if n < chars.length then .varlenDataTruncated else .success)

/-- The characters beside the terminator in `lenBytes` bytes, in `size_t`
arithmetic. -/
def outBufferLenChars (lenBytes : Nat) : Nat :=
  (lenBytes / P.wcharBytes + 18446744073709551615) % 18446744073709551616

/-- `CopyUtf8StringToSqlWcharString` into the data: the bytes it counts, and
whether it had to truncate. -/
def copyUtf8StringToSqlWcharString (b : ApplicationDataBuffer) (value : Str) (lenBytes : Nat) :
    Eff Store Fault (Nat × Bool) :=
  if lenBytes = 0 then pure (0, false)
  else do
    let out := P.convertIn value (outBufferLenChars P lenBytes)
    b.storeData 0 (out.1.flatMap fun c : Nat => leBytes P.wcharBytes (c : Int))
    b.storeData (P.wcharBytes * out.1.length) (leBytes P.wcharBytes 0)
    pure (out.1.length * P.wcharBytes, !out.2)

/-- `PutStrToStrBuffer<SQLWCHAR>`. -/
def putStrToWcharBuffer (b : ApplicationDataBuffer) (value : Str) : Put :=
  if b.buffer.isNone then pure .success
  else if b.buflen < P.wcharBytes then pure .varlenDataTruncated
  else do
    let r ← b.copyUtf8StringToSqlWcharString P value (sizeT b.buflen)
    b.storeLen (int32Cast r.1)
    pure (if r.2 then .varlenDataTruncated else .success)

/-- `CopyStringToBuffer` with its default, a length in characters. -/
def copyStringToBuffer (b : ApplicationDataBuffer) (str : Str) (buflen : Nat) : Eff Store Fault Unit := do
  let _ ← b.copyUtf8StringToSqlWcharString P str (buflen * P.wcharBytes % 18446744073709551616)
  pure ()

/-! ## Dates and times -/

/-- The branch for `AI_CHAR` of `PutDate`, `PutTimestamp` and `PutTime`. -/
def putTmToCharBuffer (b : ApplicationDataBuffer) (text : Str) (valLen : Nat) : Put := do
  b.storeLen valLen
  b.ifData (b.storeData 0 (P.strftime text (sizeT b.buflen)))
  pure (if b.buflen < valLen + 1 then .varlenDataTruncated else .success)

/-- The branch for `AI_WCHAR`; `tmp` is the size of the local string the text
is made in. -/
def putTmToWcharBuffer (b : ApplicationDataBuffer) (text : Str) (valLen : Nat) (tmp : Int) : Put := do
  b.storeLen valLen
  b.ifData
    (if tmp < 0 then raise .exception  -- `std::string tmp(GetSize(), 0)` of a huge size
    else b.copyStringToBuffer P (cStr (P.strftime text (sizeT tmp))) (sizeT b.buflen))
  pure (if b.buflen < valLen + 1 then .varlenDataTruncated else .success)

def putDate (b : ApplicationDataBuffer) (ms : Int) : Put :=
  match P.toGmTime (ms.tdiv 1000) with
  | none => raise .exception
  | some t =>
    match b.type with
    | .char => b.putTmToCharBuffer P t.dateText 10
    | .wchar => b.putTmToWcharBuffer P t.dateText 10 11
    | .tdate => do
      b.storeDate t
      b.storeLen 6
      pure .success
    | .ttime => do
      b.storeTime 0 t
      b.storeLen 6
      pure .success
    | .ttimestamp => do
      b.storeTimestamp t 0
      b.storeLen 16
      pure .success
    | _ => pure .unsupportedConversion

def putTimestamp (b : ApplicationDataBuffer) (value : Timestamp) : Put :=
  match P.toGmTime value.seconds with
  | none => raise .exception
  | some t =>
    match b.type with
    | .char => b.putTmToCharBuffer P t.timestampText 19
    | .wchar => b.putTmToWcharBuffer P t.timestampText 19 b.buflen
    | .tdate => do
      b.storeDate t
      b.storeLen 6
      pure .fractionalTruncated
    | .ttime => do
      b.storeTime 0 t
      b.storeLen 6
      pure .fractionalTruncated
    | .ttimestamp => do
      b.storeTimestamp t value.fractionNs
      b.storeLen 16
      pure .success
    | _ => pure .unsupportedConversion

/-- Unlike the other two, `PutTime` has no branch for a date. -/
def putTime (b : ApplicationDataBuffer) (ms : Int) : Put :=
  match P.toGmTime (ms.tdiv 1000) with
  | none => raise .exception
  | some t =>
    match b.type with
    | .char => b.putTmToCharBuffer P t.timeText 8
    | .wchar => b.putTmToWcharBuffer P t.timeText 8 b.buflen
    | .ttime => do
      b.storeTime 0 t
      b.storeLen 6
      pure .success
    | .ttimestamp => do
      b.storeTimestamp t 0
      b.storeLen 16
      pure .success
    | _ => pure .unsupportedConversion

/-! ## Numbers -/

/-- `PutNumToNumBuffer`: the value converted, as the bytes of the target type. -/
def putNumToNumBuffer (b : ApplicationDataBuffer) (bytes : List UInt8) : Put := do
  b.ifData (b.storeData 0 bytes)
  b.storeLen bytes.length
  pure .success

/-- The branch of `PutNum` for `AI_NUMERIC`: precision, scale, sign and the
value, cleared first. -/
def putNumToNumeric (b : ApplicationDataBuffer) (value : Num) : Put := do
  b.ifData do
    b.storeData 0 (leBytes 1 (digitLength (value.magnitude P)))
    b.storeData 1 [0]
    b.storeData 2 [if value.negative P then 0 else 1]
    b.storeData 3 (List.replicate 16 0)
    b.storeData 3 (leBytes 8 (value.magnitude P).toNat)
  b.storeLen 19
  pure .success

/-- The branch of `PutNum` for `AI_BINARY` and `AI_DEFAULT`. -/
def putNumToRawBuffer (b : ApplicationDataBuffer) (value : Num) : Put := do
  b.ifData (b.storeData 0 (value.bytes.take (min value.size (sizeT b.buflen))))
  b.storeLen value.size
  pure (if sizeT b.buflen < value.size then .varlenDataTruncated else .success)

def putNum (b : ApplicationDataBuffer) (value : Num) : Put :=
  match b.type with
  | .signedTinyint => b.putNumToNumBuffer (leBytes 1 (value.toInt P 1 true))
  | .bit | .unsignedTinyint => b.putNumToNumBuffer (leBytes 1 (value.toInt P 1 false))
  | .signedShort => b.putNumToNumBuffer (leBytes 2 (value.toInt P 2 true))
  | .unsignedShort => b.putNumToNumBuffer (leBytes 2 (value.toInt P 2 false))
  | .signedLong => b.putNumToNumBuffer (leBytes 4 (value.toInt P 4 true))
  | .unsignedLong => b.putNumToNumBuffer (leBytes 4 (value.toInt P 4 false))
  | .signedBigint => b.putNumToNumBuffer (leBytes 8 (value.toInt P 8 true))
  | .unsignedBigint => b.putNumToNumBuffer (leBytes 8 (value.toInt P 8 false))
  | .float => b.putNumToNumBuffer (leBytes 4 (value.toFloat P).toNat)
  | .double => b.putNumToNumBuffer (leBytes 8 (value.toDouble P).toNat)
  | .char => b.putStrToCharBuffer P (value.text P)
  | .wchar => b.putStrToWcharBuffer P (value.text P)
  | .numeric => b.putNumToNumeric P value
  | .binary | .default => b.putNumToRawBuffer value
  | .tdate => b.putDate P (value.toInt P 8 true)
  | .ttimestamp => b.putTimestamp P (.ofMilliseconds (value.toInt P 8 true))
  | .ttime => b.putTime P (value.toInt P 8 true)
  | .guid | .unsupported => pure .unsupportedConversion

/-! ## The other values -/

/-- `PutString`; a numeric target gets the number read off the text. -/
def putString (b : ApplicationDataBuffer) (value : Str) : Put :=
  match b.type with
  | .signedTinyint | .bit | .unsignedTinyint | .signedShort | .unsignedShort | .signedLong
  | .unsignedLong | .signedBigint | .unsignedBigint | .numeric =>
    b.putNum P (.int 8 (streamInt (-9223372036854775808) 9223372036854775807 P.indeterminate value))
  | .float | .double => b.putNum P (.double (P.streamDouble value))
  | .char | .binary | .default => b.putStrToCharBuffer P value
  | .wchar => b.putStrToWcharBuffer P value
  | .tdate | .ttime | .ttimestamp | .guid | .unsupported => pure .unsupportedConversion

def putGuid (b : ApplicationDataBuffer) (value : Guid) : Put :=
  match b.type with
  | .char | .binary | .default => b.putStrToCharBuffer P value.text
  | .wchar => b.putStrToWcharBuffer P value.text
  | .guid => do
    b.storeData 0 (leBytes 4 (value.most >>> 32).toNat)
    b.storeData 4 (leBytes 2 (value.most >>> 16).toNat)
    b.storeData 6 (leBytes 2 value.most.toNat)
    b.storeData 8 (leBytes 8 value.least.toNat).reverse
    b.storeLen 16
    pure .success
  | _ => pure .unsupportedConversion

/-- `PutRawDataToBuffer`. -/
def putRawDataToBuffer (b : ApplicationDataBuffer) (data : Str) : Put := do
  b.storeLen data.length
  let toCopy := min b.buflen data.length
  b.ifData (if 0 < toCopy then b.storeData 0 (data.take toCopy.toNat) else pure ())
  pure (if toCopy < data.length then .varlenDataTruncated else .success)

def putBinaryData (b : ApplicationDataBuffer) (data : Str) : Put :=
  match b.type with
  | .binary | .default => b.putRawDataToBuffer data
  | .char => b.putStrToCharBuffer P (hexText data)
  | .wchar => b.putStrToWcharBuffer P (hexText data)
  | _ => pure .unsupportedConversion

def putNull (b : ApplicationDataBuffer) : Put :=
  if b.reslen.isNone then pure .indicatorNeeded
  else do
    b.storeLen (-1)  -- `SQL_NULL_DATA`
    pure .success

/-- The branch of `PutDecimal` for `AI_NUMERIC`. -/
def putDecimalToNumeric (b : ApplicationDataBuffer) (value : Decimal) : Put := do
  let unscaled := P.decimal.integral value
  let bytes := P.decimal.magnitudeToBytes unscaled
  b.storeData 3 ((bytes.reverse ++ List.replicate 16 0).take 16)
  b.storeData 1 [0]
  b.storeData 2 [if unscaled < 0 then 0 else 1]
  b.storeData 0 (leBytes 1 (P.decimal.precision unscaled))
  b.storeLen 19
  pure (if 16 < bytes.length then .fractionalTruncated else .success)

def putDecimal (b : ApplicationDataBuffer) (value : Decimal) : Put :=
  match b.type with
  | .signedTinyint | .bit | .unsignedTinyint | .signedShort | .unsignedShort | .signedLong
  | .unsignedLong | .signedBigint | .unsignedBigint => do
    let _ ← b.putNum P (.int 8 (P.decimal.toInt64 value))
    pure .fractionalTruncated
  | .float | .double => do
    let _ ← b.putNum P (.double (P.decimal.toDouble value))
    pure .fractionalTruncated
  | .char | .wchar => b.putString P (P.decimal.text value)
  | .numeric => b.putDecimalToNumeric P value
  | .default | .binary | .tdate | .ttime | .ttimestamp | .guid | .unsupported =>
    pure .unsupportedConversion

/-- A call of one of the `Put` operations; those of an optional value put a
null for none. -/
inductive PutCall where
  | null
  | num (value : Option Num)
  | string (value : Option Str)
  | guid (value : Guid)
  | binaryData (data : Str)
  | decimal (value : Option Decimal)
  | date (ms : Option Int)
  | timestamp (value : Option Timestamp)
  | time (ms : Option Int)
  deriving DecidableEq, Repr

def put (b : ApplicationDataBuffer) : PutCall → Put
  | .null => b.putNull
  | .num v => v.elim b.putNull (b.putNum P)
  | .string v => v.elim b.putNull (b.putString P)
  | .guid v => b.putGuid P v
  | .binaryData data => b.putBinaryData P data
  | .decimal v => v.elim b.putNull (b.putDecimal P)
  | .date ms => ms.elim b.putNull (b.putDate P)
  | .timestamp v => v.elim b.putNull (b.putTimestamp P)
  | .time ms => ms.elim b.putNull (b.putTime P)

end ApplicationDataBuffer

end DocumentDbOdbc
