/-
`DocumentDbColumn`: elements of a document read into an application's buffer.

A helper of the column converts the element and hands the value to a `Put`
operation of the buffer; `ColumnRead` is that call, with what becomes of its
result. `readToBuffer` is the read with the effects of the call.
-/
import DocumentDbOdbc.ApplicationDataBuffer

namespace DocumentDbOdbc

open Effect ApplicationDataBuffer

/-- An element of a document. A `decimal128` is given by its `to_string`, a
document and an array by their `to_json`. -/
inductive BsonElement where
  | int32 (v : Int32)
  | int64 (v : Int64)
  | double (bits : UInt64)
  | decimal128 (text : Str)
  | utf8 (text : Str)
  | binary (data : Str)
  | oid (bytes : Vector UInt8 12)
  | bool (v : Bool)
  | date (ms : Int64)
  | timestamp (seconds : UInt32)
  | null
  | maxkey
  | minkey
  | document (json : Str)
  | array (json : Str)
  /-- Undefined, a regular expression, code, a symbol or a pointer. -/
  | other
  deriving DecidableEq, Repr

/-- `bsoncxx::document::view`. -/
abbrev Document := List (Str × BsonElement)

/-- `document[key]`: the first element of that name. -/
def Document.find (d : Document) (key : Str) : Option BsonElement :=
  (List.find? (fun e => e.1 = key) d).map (·.2)

/-- The values `JDBC_TYPE_…` that `ReadToBuffer` tells apart. -/
inductive JdbcType where
  | boolean | smallint | tinyint | integer | bigint | float | double
  | varchar | char | nchar | nvarchar | longvarchar | longnvarchar
  | null | binary | varbinary | decimal | date | timestamp | time | other
  deriving DecidableEq, Repr

/-- How the read of a column ends: with a result and no call of the buffer, an
exception, or a call whose result is returned or is dropped for `AI_SUCCESS`. -/
inductive ColumnRead where
  | returns (r : ConversionResult)
  | throws
  | forwards (call : PutCall)
  | drops (call : PutCall)
  deriving DecidableEq, Repr

namespace ColumnRead

/-- `if (convRes == AI_SUCCESS) dataBuf.Put…(value); return convRes`. -/
def checked (convRes : ConversionResult) (call : PutCall) : ColumnRead :=
  if convRes = .success then .drops call else .returns convRes

/-- The call the read makes. -/
def call? : ColumnRead → Option PutCall
  | .returns _ | .throws => none
  | .forwards call | .drops call => some call

def run (P : Platform) (b : ApplicationDataBuffer) : ColumnRead → Put
  | .returns r => pure r
  | .throws => raise .exception
  | .forwards call => b.put P call
  | .drops call => do
    let _ ← b.put P call
    pure .success

end ColumnRead

/-- `ToValidLong`: the value, cut to the bounds, and the result. -/
def toValidLong (value max min : Int) : Int × ConversionResult :=
  if max < value then (max, .failure)
  else if value < min then (min, .failure)
  else (value, .success)

/-- `ToValidLong` of a text. -/
def toValidLongText (value : Str) (max min : Int) : Int × ConversionResult :=
  match stoll value with
  | some v => toValidLong v max min
  | none => (0, .failure)

structure DocumentDbColumn where
  type : JdbcType
  document : Document
  path : Str
  deriving DecidableEq, Repr

namespace DocumentDbColumn

variable (P : Platform)

/-! ## Numbers -/

/-- A number that `ToValidLong` has seen. -/
def validInt (bytes : Nat) (v : Int × ConversionResult) : ColumnRead :=
  .checked v.2 (.num (some (.int bytes v.1)))

/-- A `double` is a truth value here, and neither a date nor a timestamp is
read. -/
def putInt8 : BsonElement → ColumnRead
  | .int32 v => validInt 1 (toValidLong v.toInt 127 (-128))
  | .int64 v => validInt 1 (toValidLong v.toInt 127 (-128))
  | .double x =>
    if P.doubleGt x 127 || P.doubleLt x (-128) then .returns .failure
    else .drops (.num (some (.int 1 (if P.doubleNonzero x then 1 else 0))))
  | .decimal128 s => validInt 1 (toValidLongText s 127 (-128))
  | .utf8 s => validInt 1 (toValidLongText s 127 (-128))
  | .bool v => .drops (.num (some (.int 1 (if v then 1 else 0))))
  | .null => .drops (.num none)
  | _ => .returns .unsupportedConversion

/-- `PutInt16`, `PutInt32` and `PutInt64`, by the bytes and the bounds of the
integer. Where the element cannot be out of bounds the source leaves out
`ToValidLong`. -/
def putInt (bytes : Nat) (max min : Int) : BsonElement → ColumnRead
  | .int32 v => validInt bytes (toValidLong v.toInt max min)
  | .int64 v => validInt bytes (toValidLong v.toInt max min)
  | .double x =>
    if P.doubleGt x max || P.doubleLt x min then .returns .failure
    else .drops (.num (some (.int bytes (P.doubleToInt bytes true x))))
  | .decimal128 s => validInt bytes (toValidLongText s max min)
  | .utf8 s => validInt bytes (toValidLongText s max min)
  | .bool v => .drops (.num (some (.int bytes (if v then 1 else 0))))
  | .date ms => .drops (.num (some (.int bytes (ms.toInt.bmod (2 ^ (8 * bytes))))))
  | .timestamp s => .drops (.num (some (.int bytes ((s.toNat : Int).bmod (2 ^ (8 * bytes))))))
  | .null => .drops (.num none)
  | _ => .returns .unsupportedConversion

def putInt16 : BsonElement → ColumnRead := putInt P 2 32767 (-32768)

def putInt32 : BsonElement → ColumnRead := putInt P 4 2147483647 (-2147483648)

def putInt64 : BsonElement → ColumnRead := putInt P 8 9223372036854775807 (-9223372036854775808)

/-- `PutFloat` and `PutDouble`, by the conversions to the type; that of a text
may throw. -/
def putReal (ofInt : Int → Num) (ofDouble : UInt64 → Num) (ofText : Str → Option Num) :
    BsonElement → ColumnRead
  | .int32 v => .drops (.num (some (ofInt v.toInt)))
  | .int64 v => .drops (.num (some (ofInt v.toInt)))
  | .double x => .drops (.num (some (ofDouble x)))
  | .decimal128 s => (ofText s).elim .throws fun v => .drops (.num (some v))
  | .utf8 s => (ofText s).elim .throws fun v => .drops (.num (some v))
  | .bool v => .drops (.num (some (ofInt (if v then 1 else 0))))
  | .date ms => .drops (.num (some (ofInt ms.toInt)))
  | .timestamp s => .drops (.num (some (ofInt s.toNat)))
  | .null => .drops (.num none)
  | _ => .returns .unsupportedConversion

def putFloat : BsonElement → ColumnRead :=
  putReal (fun v => .float (P.intToFloat v)) (fun x => .float (P.doubleToFloat x))
    fun s => (P.stof s).map .float

def putDouble : BsonElement → ColumnRead :=
  putReal (fun v => .double (P.intToDouble v)) .double fun s => (P.stod s).map .double

/-! ## Texts -/

/-- `ToString(ToPosixTime(…))`; boost formats the broken-down time. -/
def posixTimeText (seconds : Int) : Option Str := (P.toGmTime seconds).map Tm.timestampText

def putString : BsonElement → ColumnRead
  | .int32 v => .drops (.string (some (intText v.toInt)))
  | .int64 v => .drops (.string (some (intText v.toInt)))
  | .double x => .drops (.string (some (P.doubleToString x)))
  | .decimal128 s => .drops (.string (some s))
  | .utf8 s => .drops (.string (some s))
  | .binary data => .drops (.string (some (hexText data)))
  | .oid bytes => .drops (.string (some (hexText bytes.toList)))
  | .bool v => .drops (.string (some (ascii (if v then "1" else "0"))))
  | .date ms =>
    (posixTimeText P (ms.toInt.tdiv 1000)).elim .throws fun s => .drops (.string (some s))
  | .timestamp s => (posixTimeText P s.toNat).elim .throws fun s => .drops (.string (some s))
  | .null => .drops (.string none)
  | .maxkey => .drops (.string (some (ascii "MAXKEY")))
  | .minkey => .drops (.string (some (ascii "MINKEY")))
  | .document json => .drops (.string (some json))
  | .array json => .drops (.string (some json))
  | .other => .returns .unsupportedConversion

/-! ## The other types -/

def putDecimal : BsonElement → ColumnRead
  | .int32 v => .drops (.decimal (some ⟨v.toInt, 0⟩))
  | .int64 v => .drops (.decimal (some ⟨v.toInt, 0⟩))
  | .double x => .drops (.decimal (some (P.decimal.ofText (P.doubleToString x))))
  | .decimal128 s => .drops (.decimal (some (P.decimal.ofText s)))
  | .utf8 s => .drops (.decimal (some (P.decimal.ofText s)))
  | .bool v => .drops (.decimal (some ⟨if v then 1 else 0, 0⟩))
  | _ => .returns .unsupportedConversion

def putTime : BsonElement → ColumnRead
  | .int64 v => .drops (.time (some v.toInt))
  | .date ms => .drops (.time (some ms.toInt))
  | .timestamp s => .drops (.time (some (s.toNat * 1000)))
  | _ => .returns .unsupportedConversion

/-- The branch for an `int64` leaves before it has a value. -/
def putDate : BsonElement → ColumnRead
  | .int64 _ => .drops (.date none)
  | .date ms => .drops (.date (some ms.toInt))
  | .timestamp s => .drops (.date (some (s.toNat * 1000)))
  | _ => .returns .unsupportedConversion

def putTimestamp : BsonElement → ColumnRead
  | .int64 v => .drops (.timestamp (some (.ofMilliseconds v.toInt)))
  | .date ms => .drops (.timestamp (some (.ofMilliseconds ms.toInt)))
  | .timestamp s => .drops (.timestamp (some ⟨s.toNat, 0⟩))
  | _ => .returns .unsupportedConversion

/-- The one helper that returns what the buffer says. A text is copied to a
temporary string that is gone when its bytes are read. -/
def putBinaryData : BsonElement → ColumnRead
  | .utf8 s => .forwards (.binaryData ((List.range s.length).map (P.freed s)))
  | .binary data => .forwards (.binaryData data)
  | .oid bytes => .forwards (.binaryData bytes.toList)
  | .null => .forwards .null
  | _ => .returns .unsupportedConversion

/-! ## The column -/

/-- The read of an element by the type of the column. -/
def readElement (type : JdbcType) (e : BsonElement) : ColumnRead :=
  match type with
  | .boolean | .smallint => putInt8 P e
  | .tinyint => putInt16 P e
  | .integer => putInt32 P e
  | .bigint => putInt64 P e
  | .float => putFloat P e
  | .double => putDouble P e
  | .varchar | .char | .nchar | .nvarchar | .longvarchar | .longnvarchar => putString P e
  | .null => .forwards .null
  | .binary | .varbinary => putBinaryData P e
  | .decimal => putDecimal P e
  | .date => putDate e
  | .timestamp => putTimestamp e
  | .time => putTime e
  | .other => .returns .unsupportedConversion

/-- A missing element is a null. -/
def read (c : DocumentDbColumn) : ColumnRead :=
  match c.document.find c.path with
  | none => .drops .null
  | some e => readElement P c.type e

def readToBuffer (c : DocumentDbColumn) (b : ApplicationDataBuffer) : Put := (c.read P).run P b

def update (c : DocumentDbColumn) (document : Document) : DocumentDbColumn :=
  { c with document := document }

end DocumentDbColumn

end DocumentDbOdbc
