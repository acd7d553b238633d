/-
Objects of user types in the binary protocol: header, fields, raw data, footer.

The writer leaves room for the header, notes the offset of each field in a
schema, and comes back to fill in what it knows at the end only. The reader
takes the header apart and looks fields up in the footer; `BinaryObjectImpl`
does so on the memory itself, with arithmetic of its own.
-/
import DocumentDbOdbc.Lib.Slice
import DocumentDbOdbc.StreamColumn

namespace DocumentDbOdbc

open Interop

namespace Binary

/-! ## The schema -/

/-- `BinaryOffsetType`. -/
inductive BinaryOffsetType where
  | oneByte | twoBytes | fourBytes
  deriving DecidableEq

/-- The bytes of an offset. -/
def BinaryOffsetType.width : BinaryOffsetType → Nat
  | .oneByte => 1
  | .twoBytes => 2
  | .fourBytes => 4

structure BinarySchemaFieldInfo where
  id : Int32
  offset : Int32

/-- `BinarySchema`; its id is a hash of the fields, see `id`. -/
structure BinarySchema where
  fieldsInfo : List BinarySchemaFieldInfo := []

namespace BinarySchema

def fnv1OffsetBasis : Int32 := 0x811C9DC5

def fnv1Prime : Int32 := 0x01000193

/-- What `AddField` makes of the id. -/
def advanceId (id fieldId : Int32) : Int32 :=
  let id := if id = 0 then fnv1OffsetBasis else id
  let id := (id ^^^ (fieldId &&& 0xFF)) * fnv1Prime
  let id := (id ^^^ ((fieldId >>> 8) &&& 0xFF)) * fnv1Prime
  let id := (id ^^^ ((fieldId >>> 16) &&& 0xFF)) * fnv1Prime
  (id ^^^ ((fieldId >>> 24) &&& 0xFF)) * fnv1Prime

def addField (schema : BinarySchema) (fieldId offset : Int32) : BinarySchema :=
  ⟨schema.fieldsInfo ++ [⟨fieldId, offset⟩]⟩

/-- `GetId`: no id without fields, and each field advances it. -/
def id (schema : BinarySchema) : Int32 := schema.fieldsInfo.foldl (fun id info => advanceId id info.id) 0

/-- The offset of the last field, of a schema with fields. -/
def maxOffset (schema : BinarySchema) : Int32 := (schema.fieldsInfo.getLast?.map (·.offset)).getD 0

def getType (schema : BinarySchema) : BinaryOffsetType :=
  if schema.maxOffset < 0x100 then .oneByte
  else if schema.maxOffset < 0x10000 then .twoBytes
  else .fourBytes

/-- `Write`: the cast of an offset keeps its lowest bytes. -/
def write (schema : BinarySchema) : List UInt8 :=
  schema.fieldsInfo.flatMap fun i => leBytes 4 i.id.toInt ++ leBytes schema.getType.width i.offset.toInt

end BinarySchema

/-! ## The header -/

def binaryFlagUserType : Int16 := 0x0001
def binaryFlagHasSchema : Int16 := 0x0002
def binaryFlagHasRaw : Int16 := 0x0004
def binaryFlagOffsetOneByte : Int16 := 0x0008
def binaryFlagOffsetTwoBytes : Int16 := 0x0010
def binaryFlagCompactFooter : Int16 := 0x0020

/-- `flags & flag`, as a condition. -/
def hasFlag (flags flag : Int16) : Bool := decide (flags &&& flag ≠ 0)

/-- `*(data + pos)` to `*(data + pos + size - 1)` of a memory block. -/
def unsafeRead (mem : List UInt8) (pos : Int32) (size : Nat) : Except StreamError (List UInt8) :=
  if 0 ≤ pos.toInt ∧ pos.toInt + size ≤ mem.length then .ok ((mem.drop pos.toInt.toNat).take size)
  else .error .outOfBounds

def unsafeReadInt32 (mem : List UInt8) (pos : Int32) : Except StreamError Int32 := do
  let bytes ← unsafeRead mem pos 4
  .ok (Int32.ofNat (Bytes.value bytes))

/-- `BinaryObjectHeader`, without the parts that only its own getters give. -/
structure BinaryObjectHeader where
  flags : Int16
  typeId : Int32
  length : Int32
  schemaOffset : Int32

namespace BinaryObjectHeader

def size : Nat := 24

/-- The header of the object there; nothing is checked. -/
def ofMemory (mem : List UInt8) (start : Int32) : Except StreamError BinaryObjectHeader := do
  let flags ← unsafeRead mem (start + 2) 2
  let typeId ← unsafeReadInt32 mem (start + 4)
  let length ← unsafeReadInt32 mem (start + 12)
  let schemaOffset ← unsafeReadInt32 mem (start + 20)
  .ok { flags := Int16.ofNat (Bytes.value flags), typeId, length, schemaOffset }

variable (header : BinaryObjectHeader)

def hasSchema : Bool := hasFlag header.flags binaryFlagHasSchema

def getFooterOffset : Int32 := if header.hasSchema then header.schemaOffset else header.length

def getFooterLength : Int32 := if header.hasSchema then header.length - header.schemaOffset else 0

def getDataLength : Int32 := header.getFooterOffset - Int32.ofNat size

end BinaryObjectHeader

/-- `GetDataHashCode`. -/
def getDataHashCode (data : List UInt8) : Int32 := data.foldl (fun hash byte => 31 * hash + byte.toInt8.toInt32) 1

/-! ## The writer -/

/-- What an object's `Write` asks of its writer; the bytes are those of a value
with its header. -/
inductive Write where
  /-- A write under a name, by the id of the name. -/
  | field (fieldId : Int32) (value : List UInt8)
  | setRawMode
  | raw (value : List UInt8)

/-- `BinaryWriterImpl` of an object: the bytes of the memory below the position
of its stream. -/
structure ObjectWriter where
  stream : List UInt8
  start : Nat
  schema : BinarySchema := {}
  rawPos : Int := -1

namespace ObjectWriter

variable (w : ObjectWriter)

def put (bytes : List UInt8) : ObjectWriter := { w with stream := w.stream ++ bytes }

/-- `WriteInt16` and `WriteInt32` at a position. -/
def patch (pos : Nat) (bytes : List UInt8) : ObjectWriter := { w with stream := Slice.patch w.stream pos bytes }

def checkRawMode (expected : Bool) : Except StreamError Unit :=
  let rawMode := w.rawPos != -1
  if expected && !rawMode then .error (.binary (ascii "Operation can be performed only in raw mode."))
  else if !expected && rawMode then .error (.binary (ascii "Operation cannot be performed in raw mode."))
  else .ok ()

def writeFieldId (fieldId : Int32) : ObjectWriter :=
  { w with schema := w.schema.addField fieldId (Int32.ofNat (w.stream.length - w.start)) }

def perform : Write → Except StreamError ObjectWriter
  | .field fieldId value => do
    w.checkRawMode false
    .ok ((w.writeFieldId fieldId).put value)
  | .setRawMode => do
    w.checkRawMode false
    .ok { w with rawPos := w.stream.length }
  | .raw value => do
    w.checkRawMode true
    .ok (w.put value)

def hasSchema : Bool := !w.schema.fieldsInfo.isEmpty

def getRawPosition : Int := if w.rawPos = -1 then w.stream.length else w.rawPos

def postWrite : ObjectWriter :=
  let lenWithoutSchema := w.stream.length - w.start
  let flags := if w.rawPos > 0 then binaryFlagUserType ||| binaryFlagHasRaw else binaryFlagUserType
  if w.hasSchema then
    let footed := w.put w.schema.write
    let footed := if w.rawPos > 0 then footed.put (leBytes 4 (w.rawPos - w.start)) else footed
    let flags := flags ||| binaryFlagHasSchema
    let flags :=
      match w.schema.getType with
      | .oneByte => flags ||| binaryFlagOffsetOneByte
      | .twoBytes => flags ||| binaryFlagOffsetTwoBytes
      | .fourBytes => flags
    (((footed.patch (w.start + 2) (leBytes 2 flags.toInt)).patch (w.start + 12) (leBytes 4 (footed.stream.length - w.start))).patch
      (w.start + 16) (leBytes 4 w.schema.id.toInt)).patch (w.start + 20) (leBytes 4 lenWithoutSchema)
  else
    (((w.patch (w.start + 2) (leBytes 2 flags.toInt)).patch (w.start + 12) (leBytes 4 lenWithoutSchema)).patch
      (w.start + 16) (leBytes 4 0)).patch (w.start + 20) (leBytes 4 (w.getRawPosition - w.start))

end ObjectWriter

/-- `WriteTopObject0` of an object that is not null, without the metadata;
`reserved` is what the memory had in the place of the header's last 16 bytes. -/
def writeTopObject (stream : List UInt8) (typeId : Int32) (reserved : Fin 16 → UInt8) (writes : List Write) :
    Except StreamError (List UInt8) := do
  let pos := stream.length
  let w : ObjectWriter :=
    { stream := stream ++ [documentdbTypeObject] ++ [documentdbProtoVer] ++ leBytes 2 binaryFlagUserType.toInt ++
        leBytes 4 typeId.toInt ++ List.ofFn reserved
      start := pos }
  let w ← writes.foldlM ObjectWriter.perform w
  let w := w.postWrite
  let header ← BinaryObjectHeader.ofMemory w.stream (Int32.ofNat pos)
  let data ← unsafeRead w.stream (Int32.ofNat (pos + BinaryObjectHeader.size)) header.getDataLength.toInt.toNat
  .ok (w.patch (pos + 8) (leBytes 4 (getDataHashCode data).toInt)).stream

/-! ## The reader -/

/-- `BinaryReaderImpl` of an object. -/
structure ObjectReader where
  pos : Int32
  usrType : Bool
  typeId : Int32
  hashCode : Int32
  len : Int32
  rawOff : Int32
  footerBegin : Int32
  footerEnd : Int32
  schemaType : BinaryOffsetType

/-- The case `DOCUMENTDB_HDR_FULL` of `ReadTopObject0`, up to the reader. -/
def readFull (pos : Int32) (stream : InteropInputStream) : Except InputError (ObjectReader × InteropInputStream) := do
  let (protoVer, stream) ← onStream stream.readInt8
  if protoVer ≠ documentdbProtoVer then
    .error (.stream (.binary (ascii "Unsupported binary protocol version: ")))
  else
    let (flags, stream) ← onStream stream.readInt16
    if hasFlag flags binaryFlagCompactFooter then
      .error (.stream (.binary (ascii "Unsupported binary protocol flag: DOCUMENTDB_BINARY_FLAG_COMPACT_FOOTER: ")))
    else
      let (typeId, stream) ← onStream stream.readInt32
      let (hashCode, stream) ← onStream stream.readInt32
      let (len, stream) ← onStream stream.readInt32
      let (_, stream) ← onStream stream.readInt32
      let (schemaOrRawOff, stream) ← onStream stream.readInt32
      let footerBegin := if hasFlag flags binaryFlagHasSchema then pos + schemaOrRawOff else pos + len
      let schemaType :=
        if hasFlag flags binaryFlagOffsetOneByte then .oneByte
        else if hasFlag flags binaryFlagOffsetTwoBytes then .twoBytes
        else .fourBytes
      let both := hasFlag flags binaryFlagHasRaw && hasFlag flags binaryFlagHasSchema
      -- 4 is the size of the raw offset at the end of the packet
      let footerEnd := if both then pos + len - 4 else pos + len
      let rawOff ← if both then onStream (stream.readInt32At footerEnd) else .ok schemaOrRawOff
      .ok ({ pos, usrType := hasFlag flags binaryFlagUserType, typeId, hashCode, len, rawOff, footerBegin, footerEnd,
             schemaType }, stream)

/-- `DOCUMENTDB_HDR_HND`. -/
def documentdbHdrHnd : UInt8 := 102

/-- `ReadTopObject0`, where `read` is what the type of the object does with its
reader. So many binary wrappers may stand inside one another; more of them
overflow the stack. -/
def readTopObject {α : Type} (read : ObjectReader → InteropInputStream → Except InputError (α × InteropInputStream)) :
    Nat → InteropInputStream → Except InputError (Option α × InteropInputStream)
  | 0, _ => .error (.stream .outOfBounds)
  | depth + 1, stream => do
    let pos := stream.pos
    let (hdr, stream) ← onStream stream.readInt8
    if hdr = documentdbHdrNull then .ok (none, stream)
    else if hdr = documentdbHdrHnd then .error (.stream (.binary (ascii "Circular references are not supported.")))
    else if hdr = documentdbTypeBinary then
      let (portLen, stream) ← onStream stream.readInt32
      let curPos := stream.pos
      let portOff ← onStream (stream.readInt32At (curPos + portLen))
      let stream ← stream.position (curPos + portOff)
      let (res, stream) ← readTopObject read depth stream
      let stream ← stream.position (curPos + portLen + 4)
      .ok (res, stream)
    else if hdr = documentdbTypeObject then
      let (reader, stream) ← readFull pos stream
      let (res, stream) ← read reader stream
      let stream ← stream.position (pos + reader.len)
      .ok (some res, stream)
    else .error (.stream (.binary (ascii "Unexpected header during deserialization: ")))

namespace ObjectReader

variable (r : ObjectReader)

/-- The offset of an entry of the footer. -/
def readOffset (stream : InteropInputStream) (pos : Int32) : Except StreamError Int32 :=
  match r.schemaType with
  | .oneByte => do
    let offset ← stream.readInt8At pos
    .ok (offset &&& 0xFF)
  | .twoBytes => do
    let offset ← stream.readInt16At pos
    .ok (offset &&& 0xFFFF)
  | .fourBytes => stream.readInt32At pos

/-- The bytes of an entry: an id and an offset. -/
def entrySize : Int32 := Int32.ofNat (4 + r.schemaType.width)

/-- The loop of `FindField`, which goes round `n` times at most. -/
def findFieldFrom (stream : InteropInputStream) (fieldId : Int32) : Nat → Int32 → Except StreamError Int32
  | 0, _ => .ok (-1)
  | n + 1, schemaPos => do
    let currentFieldId ← stream.readInt32At schemaPos
    if fieldId = currentFieldId then
      let offset ← r.readOffset stream (schemaPos + 4)
      .ok (offset + r.pos)
    else findFieldFrom stream fieldId n (schemaPos + r.entrySize)

/-- How many positions from `footerBegin` on, an entry apart, lie below
`footerEnd`. -/
def entries : Nat := ((r.footerEnd.toInt - r.footerBegin.toInt + (3 + r.schemaType.width)) / (4 + r.schemaType.width)).toNat

/-- `FindField`; the stream is put back where it stood. -/
def findField (stream : InteropInputStream) (fieldId : Int32) : Except InputError Int32 := do
  let stream ← stream.position r.footerBegin
  onStream (r.findFieldFrom stream fieldId r.entries r.footerBegin)

/-- `SetRawMode`, of a reader that is in no session. -/
def setRawMode (stream : InteropInputStream) : Except InputError InteropInputStream := stream.position (r.pos + r.rawOff)

end ObjectReader

/-! ## The object in memory -/

/-- The loop of `BinaryObjectImpl::FindField`. -/
def findInMemoryFrom (mem : List UInt8) (start fieldId : Int32) (schemaType : BinaryOffsetType) :
    Nat → Int32 → Except StreamError Int32
  | 0, _ => .ok (-1)
  | n + 1, schemaPos => do
    let currentFieldId ← unsafeReadInt32 mem schemaPos
    if fieldId = currentFieldId then
      let offset ← unsafeRead mem (schemaPos + 4) schemaType.width
      .ok (Int32.ofNat (Bytes.value offset) + start)
    else findInMemoryFrom mem start fieldId schemaType n (schemaPos + Int32.ofNat (4 + schemaType.width))

/-- `BinaryObjectImpl::FindField`: like the reader's, but for the bounds of the
footer, and nothing checks the reads. -/
def findFieldInMemory (mem : List UInt8) (start fieldId : Int32) : Except StreamError Int32 := do
  let header ← BinaryObjectHeader.ofMemory mem start
  let footerBegin := header.getFooterOffset + start
  let footerEnd := footerBegin + header.getFooterLength
  if Int32.ofNat mem.length - start < footerEnd then
    .error (.binary (ascii "Not enough data in the binary object"))
  else
    let schemaType : BinaryOffsetType :=
      if hasFlag header.flags binaryFlagOffsetOneByte then .oneByte
      else if hasFlag header.flags binaryFlagOffsetTwoBytes then .twoBytes
      else .fourBytes
    let rounds := (footerEnd.toInt - footerBegin.toInt + (3 + schemaType.width)) / (4 + schemaType.width)
    findInMemoryFrom mem start fieldId schemaType rounds.toNat footerBegin

end Binary

end DocumentDbOdbc
