/-
`Column(reader)`: where a column of a row lies in the input stream.

The end of a column is where the stream stands after its value. The values that
are skipped give their own lengths, and these are added to the position as they
are; `ends_ofReader_iff` says which lengths keep the column inside the memory
block.
-/
import DocumentDbOdbc.DecimalWire
import DocumentDbOdbc.InputStreamCalls

namespace DocumentDbOdbc

open Outcome Interop
open InputError (Thrown)

namespace Binary

/-! ## Headers -/

def documentdbHdrNull : UInt8 := 101

/-- `DOCUMENTDB_PROTO_VER`. -/
def documentdbProtoVer : UInt8 := 1

def documentdbTypeString : UInt8 := 9
def documentdbTypeUuid : UInt8 := 10
def documentdbTypeDate : UInt8 := 11
def documentdbTypeBinary : UInt8 := 27
def documentdbTypeTimestamp : UInt8 := 33
def documentdbTypeTime : UInt8 := 36
def documentdbTypeObject : UInt8 := 103

/-- The headers that the constructor tells apart. -/
inductive ColumnHeader where
  | null | byte | short | int | long | float | double | char | bool
  | string | uuid | date | arrayByte | binary | decimal | timestamp | time | object
  | other
  deriving DecidableEq, Repr

def ColumnHeader.ofByte (hdr : UInt8) : ColumnHeader :=
  if hdr = documentdbHdrNull then .null
  else if hdr = 1 then .byte
  else if hdr = 2 then .short
  else if hdr = 3 then .int
  else if hdr = 4 then .long
  else if hdr = 5 then .float
  else if hdr = 6 then .double
  else if hdr = 7 then .char
  else if hdr = 8 then .bool
  else if hdr = documentdbTypeString then .string
  else if hdr = documentdbTypeUuid then .uuid
  else if hdr = documentdbTypeDate then .date
  else if hdr = 12 then .arrayByte
  else if hdr = documentdbTypeBinary then .binary
  else if hdr = Common.Decimal.documentdbTypeDecimal then .decimal
  else if hdr = documentdbTypeTimestamp then .timestamp
  else if hdr = documentdbTypeTime then .time
  else if hdr = documentdbTypeObject then .object
  else .other

/-- The headers that `ReadColumnHeader` leaves read. -/
def ColumnHeader.isRead : ColumnHeader → Bool
  | .byte | .short | .char | .int | .long | .float | .double | .bool | .null | .arrayByte => true
  | _ => false

/-! ## The reader -/

def readGuid (stream : InteropInputStream) : Except StreamError ((Int64 × Int64) × InteropInputStream) := do
  let (most, stream) ← stream.readInt64
  let (least, stream) ← stream.readInt64
  .ok ((most, least), stream)

/-- The milliseconds of the date. -/
def readDate (stream : InteropInputStream) : Except StreamError (Int64 × InteropInputStream) := stream.readInt64

/-- The milliseconds of the time. -/
def readTime (stream : InteropInputStream) : Except StreamError (Int64 × InteropInputStream) := stream.readInt64

namespace BinaryReaderImpl

/-- `ReadNullable` behind `CheckRawMode(true)` and `CheckSingleMode(true)`; no
value is `T()`. -/
def readNullable {α : Type} (r : BinaryReaderImpl) (func : InteropInputStream → Except StreamError (α × InteropInputStream))
    (expHdr : UInt8) : Except InputError (Option α × InteropInputStream) := do
  onStream r.checkRaw
  let (hdr, stream) ← onStream r.stream.readInt8
  if hdr = expHdr then
    let (value, stream) ← onStream (func stream)
    .ok (some value, stream)
  else if hdr = documentdbHdrNull then .ok (none, stream)
  else .error (.header (ascii "Invalid header") (stream.pos - 1) expHdr hdr)

/-- `ReadStringInternal`, into a buffer of that many bytes if there is one: the
length of the string, and what is written to the buffer. -/
def readStringInternal (r : BinaryReaderImpl) (res : Option Int32) :
    Except InputError ((Int32 × List UInt8) × InteropInputStream) := do
  let (hdr, stream) ← onStream r.stream.readInt8
  if hdr = documentdbTypeString then
    let (realLen, stream) ← onStream stream.readInt32
    match res.filter (realLen ≤ ·) with
    | some len =>
      let (bytes, stream) ← onStream (stream.readInt8Array realLen)
      .ok ((realLen, if realLen < len then bytes ++ [0] else bytes), stream)
    | none =>
      let stream ← stream.position (stream.pos - 4 - 1)
      .ok ((realLen, []), stream)
  else if hdr ≠ documentdbHdrNull then
    .error (.header (ascii "Invalid header") (stream.pos - 1) documentdbTypeString hdr)
  else .ok ((-1, []), stream)

/-- `ReadString(res, len)`. -/
def readString (r : BinaryReaderImpl) (res : Option Int32) :
    Except InputError ((Int32 × List UInt8) × InteropInputStream) := do
  onStream r.checkRaw
  r.readStringInternal res

end BinaryReaderImpl

/-- `utility::ReadString`. -/
def readString (reader : BinaryReaderImpl) : Except InputError (Str × InteropInputStream) := do
  let ((strLen, _), stream) ← reader.readString none
  if strLen > 0 then
    let ((_, str), stream) ← { reader with stream := stream }.readString (some strLen)
    .ok (str, stream)
  else if strLen = 0 then
    let (_, stream) ← { reader with stream := stream }.readString (some 1)
    .ok ([], stream)
  else .ok ([], stream)

end Binary

open Binary

/-! ## The column -/

/-- `InteropStreamPositionGuard`: the stream is back at its position in the end. -/
def Interop.InteropInputStream.guarded {α : Type} (stream : InteropInputStream)
    (body : Except InputError (α × InteropInputStream)) : Except InputError (α × InteropInputStream) := do
  let (value, after) ← body
  let after ← after.position stream.pos
  .ok (value, after)

/-- `Column`. -/
structure Column where
  type : UInt8
  startPos : Int32
  endPos : Int32
  offset : Int32
  size : Int32
  deriving DecidableEq, Repr

namespace Column

/-- `Column()`. -/
def empty : Column := ⟨0, -1, -1, 0, 0⟩

def isValid (c : Column) : Bool := c.startPos ≥ 0

def getObjectLength (stream : InteropInputStream) : Except InputError (Option Int32 × InteropInputStream) :=
  stream.guarded do
    let (hdr, stream) ← onStream stream.readInt8
    if hdr = documentdbTypeBinary then
      let (len, stream) ← onStream stream.readInt32
      .ok (some (1 + 4 + len + 4), stream)
    else if hdr = documentdbTypeObject then
      let (protoVer, stream) ← onStream stream.readInt8
      if protoVer ≠ documentdbProtoVer then .ok (none, stream)
      else
        let len ← onStream (stream.readInt32At (stream.pos + 2 + 4 + 4))
        .ok (some len, stream)
    else .ok (none, stream)

def readColumnHeader (stream : InteropInputStream) : Except InputError (UInt8 × InteropInputStream) := do
  let headerPos := stream.pos
  let (hdr, stream) ← onStream stream.readInt8
  if (ColumnHeader.ofByte hdr).isRead then .ok (hdr, stream)
  else
    let stream ← stream.position headerPos
    .ok (hdr, stream)

/-- A scalar of that many bytes. -/
def scalar (reader : BinaryReaderImpl) (size : Int32) : Except InputError (Option (Int32 × Int32) × InteropInputStream) := do
  let (_, after) ← onStream (reader.readRaw size)
  .ok (some (reader.stream.pos, size), after.stream)

/-- The `switch` of the constructor: `startPosTmp` and `sizeTmp`, unless it
returns early. With `asserts` the build checks its assertions. -/
def extent (asserts : Bool) (reader : BinaryReaderImpl) (hdr : UInt8) :
    Except InputError (Option (Int32 × Int32) × InteropInputStream) :=
  let startPos := reader.stream.pos
  match ColumnHeader.ofByte hdr with
  | .null => .ok (some (startPos, 1), reader.stream)
  | .byte | .bool => scalar reader 1
  | .short | .char => scalar reader 2
  | .float | .int => scalar reader 4
  | .double | .long => scalar reader 8
  | .string => do
    let (str, stream) ← readString reader
    .ok (some (startPos, Int32.ofNat str.length), stream)
  | .uuid => do
    let (_, stream) ← reader.readNullable Binary.readGuid documentdbTypeUuid
    .ok (some (startPos, 16), stream)
  | .binary | .object => do
    match ← getObjectLength reader.stream with
    | (none, stream) => .ok (none, stream)
    | (some len, stream) =>
      let stream ← stream.position (stream.pos + len)
      .ok (some (startPos, len), stream)
  | .decimal => do
    let (res, after) ← onStream (Common.Decimal.readDecimal reader)
    .ok (some (startPos, Int32.ofNat res.magnitude.mag.length + 8), after.stream)
  | .date => do
    let (_, stream) ← reader.readNullable readDate documentdbTypeDate
    .ok (some (startPos, 8), stream)
  | .time => do
    let (_, stream) ← reader.readNullable readTime documentdbTypeTime
    .ok (some (startPos, 8), stream)
  | .timestamp => do
    let (_, stream) ← reader.readNullable readTimestamp documentdbTypeTimestamp
    .ok (some (startPos, 12), stream)
  | .arrayByte => do
    let (size, after) ← onStream reader.readInt32
    if asserts && size < 0 then .error (.stream .assertionFailed)
    let stream ← after.stream.position (after.stream.pos + size)
    .ok (some (after.stream.pos, size), stream)
  | .other => if asserts then .error (.stream .assertionFailed) else .ok (none, reader.stream)

/-- The members as they are in the end. -/
def assign (hdr : UInt8) : Option (Int32 × Int32) × InteropInputStream → Column
  | (none, _) => empty
  | (some (startPos, size), stream) => ⟨hdr, startPos, stream.pos, 0, size⟩

/-- `Column(reader)`, where the reader has a stream. -/
def ofReader (asserts : Bool) (reader : BinaryReaderImpl) : Except InputError (Column × InteropInputStream) :=
  reader.stream.guarded do
    let (hdr, stream) ← readColumnHeader reader.stream
    let found ← extent asserts { reader with stream := stream } hdr
    .ok (assign hdr found, found.2)

end Column

end DocumentDbOdbc
