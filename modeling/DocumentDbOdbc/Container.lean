/-
Containers in the binary protocol: the sessions in which a writer writes their
elements and a reader reads them, and the skipping of whole values.

A writer leaves room for the count of a container and comes back to fill it in
at the commit. Each session has a number, and a call with another number is
refused; 0 is the number of no session, and what stands for it outside of one.
-/
import DocumentDbOdbc.ObjectFormat

namespace DocumentDbOdbc

open Outcome Interop

namespace Binary

/-! ## The writer -/

/-- What `WriteArray`, `WriteStringArray`, `WriteCollection` and `WriteMap`
start. -/
inductive ContainerType where
  | array
  | stringArray
  | collection (typ : UInt8)
  | map (typ : UInt8)
  deriving DecidableEq

namespace ContainerType

def hdr : ContainerType → UInt8
  | .array => 23
  | .stringArray => 20
  | .collection _ => 24
  | .map _ => 25

/-- The byte after the count. -/
def typ : ContainerType → List UInt8
  | .array | .stringArray => []
  | .collection typ | .map typ => [typ]

end ContainerType

/-- `BinaryWriterImpl` in raw mode: the bytes below the position of its stream,
and its session. -/
structure ContainerWriter where
  stream : List UInt8
  elemIdGen : Int32 := 0
  elemId : Int32 := 0
  elemCnt : Int32 := 0
  elemPos : Int := -1

namespace ContainerWriter

/-- A call on the writer; an element of a map is a key and a value. -/
inductive Call where
  /-- A write in single mode. -/
  | write (value : List UInt8)
  /-- `WriteObject`, which does not ask for single mode. -/
  | writeObject (value : List UInt8)
  /-- A container is started; `room` is what the memory had in the place of the
  count. -/
  | start (container : ContainerType) (room : Fin 4 → UInt8)
  | writeElement (id : Int32) (value : List UInt8)
  | commitContainer (id : Int32)

variable (w : ContainerWriter)

def checkSingleMode (expected : Bool) : Except StreamError Unit :=
  if expected ∧ w.elemId ≠ 0 then
    .error (.binary (ascii "Operation cannot be performed when container is being written."))
  else if ¬expected ∧ w.elemId = 0 then
    .error (.binary (ascii "Operation can be performed only when container is being written."))
  else .ok ()

def checkSession (expSes : Int32) : Except StreamError Unit :=
  if w.elemId ≠ expSes then
    .error (.binary (ascii "Containter write session has been finished or is not started yet."))
  else .ok ()

/-- `StartContainerSession`; the count of the elements is left as it is. -/
def startContainerSession : Except StreamError ContainerWriter := do
  w.checkSingleMode true
  .ok { w with elemIdGen := w.elemIdGen + 1, elemId := w.elemIdGen + 1, elemPos := w.stream.length }

def put (bytes : List UInt8) : ContainerWriter := { w with stream := w.stream ++ bytes }

def writeElement (id : Int32) (value : List UInt8) : Except StreamError ContainerWriter := do
  w.checkSession id
  .ok { w.put value with elemCnt := w.elemCnt + 1 }

def commitContainer (id : Int32) : Except StreamError ContainerWriter := do
  w.checkSession id
  .ok { w with
    stream := Slice.patch w.stream (w.elemPos + 1).toNat (leBytes 4 w.elemCnt.toInt)
    elemId := 0, elemCnt := 0, elemPos := -1 }

def perform : Call → Except StreamError ContainerWriter
  | .write value => do
    w.checkSingleMode true
    .ok (w.put value)
  | .writeObject value => .ok (w.put value)
  | .start container room => do
    let w ← w.startContainerSession
    .ok (w.put (container.hdr :: List.ofFn room ++ container.typ))
  | .writeElement id value => w.writeElement id value
  | .commitContainer id => w.commitContainer id

/-- One call after the other; one that throws changes nothing. -/
def run (calls : List Call) : ContainerWriter :=
  calls.foldl (fun w call => match w.perform call with | .ok w => w | .error _ => w) w

/-- `WriteCollection` of an interval. -/
def writeCollection (room : Fin 4 → UInt8) (typ : UInt8) (values : List (List UInt8)) : Except StreamError ContainerWriter := do
  let w ← w.perform (.start (.collection typ) room)
  let w ← values.foldlM (fun w value => w.writeElement w.elemId value) w
  w.commitContainer w.elemId

end ContainerWriter

/-! ## The reader -/

/-- The mode and the session of a `BinaryReaderImpl`. -/
structure ContainerReader where
  rawMode : Bool := false
  elemIdGen : Int32 := 0
  elemId : Int32 := 0
  elemCnt : Int32 := -1
  elemRead : Int32 := 0

namespace ContainerReader

variable (r : ContainerReader)

def checkRawMode (expected : Bool) : Except InputError Unit :=
  if expected && !r.rawMode then .error (.stream (.binary (ascii "Operation can be performed only in raw mode.")))
  else if !expected && r.rawMode then .error (.stream (.binary (ascii "Operation cannot be performed in raw mode.")))
  else .ok ()

def checkSingleMode (expected : Bool) : Except InputError Unit :=
  if expected ∧ r.elemId ≠ 0 then
    .error (.stream (.binary (ascii "Operation cannot be performed when container is being read.")))
  else if ¬expected ∧ r.elemId = 0 then
    .error (.stream (.binary (ascii "Operation can be performed only when container is being read.")))
  else .ok ()

def checkSession (expSes : Int32) : Except InputError Unit :=
  if r.elemId ≠ expSes then
    .error (.stream (.binary (ascii "Containter read session has been finished or is not started yet.")))
  else .ok ()

/-- What a session is started with. -/
structure Started where
  id : Int32
  size : Int32
  reader : ContainerReader
  stream : InteropInputStream

/-- `StartContainerSession`; an empty container and a null one start none, but
take a number. -/
def startContainerSession (expRawMode : Bool) (expHdr : UInt8) (stream : InteropInputStream) : Except InputError Started := do
  r.checkRawMode expRawMode
  r.checkSingleMode true
  let (hdr, stream) ← onStream stream.readInt8
  if hdr = expHdr then
    let (cnt, stream) ← onStream stream.readInt32
    if cnt ≠ 0 then
      .ok ⟨r.elemIdGen + 1, cnt,
        { r with elemIdGen := r.elemIdGen + 1, elemId := r.elemIdGen + 1, elemCnt := cnt, elemRead := 0 }, stream⟩
    else .ok ⟨r.elemIdGen + 1, 0, { r with elemIdGen := r.elemIdGen + 1 }, stream⟩
  else if hdr ≠ documentdbHdrNull then .error (.header (ascii "Invalid header") (stream.pos - 1) expHdr hdr)
  else .ok ⟨r.elemIdGen + 1, -1, { r with elemIdGen := r.elemIdGen + 1 }, stream⟩

def hasNextElement (id : Int32) : Bool := decide (r.elemId = id ∧ r.elemRead < r.elemCnt)

/-- The count of the elements read; the last one ends the session. -/
def advance : ContainerReader :=
  if r.elemRead + 1 = r.elemCnt then { r with elemId := 0, elemCnt := -1, elemRead := 0 }
  else { r with elemRead := r.elemRead + 1 }

section

variable {α : Type} (read : InteropInputStream → Except InputError (α × InteropInputStream))

def readElement (id : Int32) (stream : InteropInputStream) : Except InputError (α × ContainerReader × InteropInputStream) := do
  r.checkSession id
  let (x, stream) ← read stream
  .ok (x, r.advance, stream)

/-- The loop of `ReadCollection`, which goes round so many times at most. -/
def readElements (id : Int32) : Nat → ContainerReader → InteropInputStream →
    Except InputError (List α × ContainerReader × InteropInputStream)
  | 0, r, stream => .ok ([], r, stream)
  | n + 1, r, stream =>
    if r.hasNextElement id then do
      let (x, r, stream) ← r.readElement read id stream
      let (xs, r, stream) ← readElements id n r stream
      .ok (x :: xs, r, stream)
    else .ok ([], r, stream)

/-- `ReadCollection` with an output iterator, in raw mode. -/
def readCollection (stream : InteropInputStream) : Except InputError (List α × Int32 × ContainerReader × InteropInputStream) := do
  let started ← r.startContainerSession true (ContainerType.collection 0).hdr stream
  let stream ←
    if started.size ≠ -1 then (onStream started.stream.readInt8).map (·.2) else .ok started.stream
  let (xs, r, stream) ← readElements read started.id started.size.toInt.toNat started.reader stream
  .ok (xs, started.size, r, stream)

end

end ContainerReader

/-! ## Skipping -/

/-- What a header says of the bytes that follow it: the cases of `Skip`. -/
inductive Layout where
  | null
  | fixed (width : Nat)
  /-- A count of elements of that width. -/
  | sized (width : Nat)
  /-- A length, which a negative one does not stop. -/
  | marshalled
  | decimal
  | elements
  | collection
  | map
  | wrapped
  | object
  | invalid
  deriving DecidableEq

def layout (hdr : UInt8) : Layout :=
  if hdr = documentdbTypeBinary then .wrapped
  else if hdr = 30 then .decimal
  else if hdr = 254 then .marshalled
  else if hdr = 1 ∨ hdr = 8 then .fixed 1
  else if hdr = 2 ∨ hdr = 7 then .fixed 2
  else if hdr = 3 ∨ hdr = 5 then .fixed 4
  else if hdr = 4 ∨ hdr = 6 ∨ hdr = documentdbTypeDate ∨ hdr = documentdbTypeTime ∨ hdr = 28 ∨ hdr = 38 then .fixed 8
  else if hdr = documentdbTypeUuid then .fixed 16
  else if hdr = documentdbTypeString ∨ hdr = 12 ∨ hdr = 19 then .sized 1
  else if hdr = 13 ∨ hdr = 18 then .sized 2
  else if hdr = 14 ∨ hdr = 16 then .sized 4
  else if hdr = 15 ∨ hdr = 17 then .sized 8
  else if hdr = 20 ∨ hdr = 21 ∨ hdr = 22 ∨ hdr = 34 ∨ hdr = 37 ∨ hdr = 31 ∨ hdr = 23 then .elements
  else if hdr = 24 then .collection
  else if hdr = 25 then .map
  else if hdr = documentdbTypeTimestamp then .fixed 12
  else if hdr = documentdbTypeObject then .object
  else if hdr = documentdbHdrNull then .null
  else .invalid

/-- A loop of that many rounds. -/
def repeatRead (read : InteropInputStream → Except InputError InteropInputStream) :
    Nat → InteropInputStream → Except InputError InteropInputStream
  | 0, stream => .ok stream
  | n + 1, stream => do
    let stream ← read stream
    repeatRead read n stream

/-- `Skip`. Containers may stand so deep inside one another; deeper ones
overflow the stack. -/
def skip : Nat → InteropInputStream → Except InputError InteropInputStream
  | 0, _ => .error (.stream .outOfBounds)
  | depth + 1, stream => do
    let (hdr, stream) ← onStream stream.readInt8
    match layout hdr with
    | .null => .ok stream
    | .fixed width => .ok (stream.ignore (Int32.ofNat width))
    | .sized width => do
      let (realLen, stream) ← onStream stream.readInt32
      .ok (if 0 < realLen then stream.ignore (realLen * Int32.ofNat width) else stream)
    | .marshalled => do
      let (realLen, stream) ← onStream stream.readInt32
      .ok (stream.ignore realLen)
    | .decimal => do
      let (magLen, stream) ← onStream (stream.ignore 4).readInt32
      .ok (stream.ignore magLen)
    | .elements => do
      let (cnt, stream) ← onStream stream.readInt32
      repeatRead (skip depth) cnt.toInt.toNat stream
    | .collection => do
      let (cnt, stream) ← onStream stream.readInt32
      repeatRead (skip depth) cnt.toInt.toNat (stream.ignore 1)
    | .map => do
      let (cnt, stream) ← onStream stream.readInt32
      repeatRead (fun stream => skip depth stream >>= skip depth) cnt.toInt.toNat (stream.ignore 1)
    | .wrapped => do
      let (portLen, stream) ← onStream stream.readInt32
      .ok (stream.ignore (portLen + 4))
    | .object => do
      let objectBegin := stream.pos - 1
      let objectLen ← onStream (stream.readInt32At (objectBegin + 12))
      stream.position (objectBegin + objectLen)
    | .invalid => .error (.stream (.binary (ascii "Invalid header")))

/-! ## The nodes of a cluster -/

/-- `ReadTopObject0` of a string. -/
def readTopString (stream : InteropInputStream) : Except InputError (Str × InteropInputStream) := do
  let (typeId, stream) ← onStream stream.readInt8
  if typeId = documentdbTypeString then
    let (realLen, stream) ← onStream stream.readInt32
    if 0 < realLen then onStream (stream.readInt8Array realLen) else .ok ([], stream)
  else if typeId = documentdbHdrNull then .ok ([], stream)
  else .error (.header (ascii "Invalid header") (stream.pos - 1) documentdbTypeString typeId)

inductive AttributeError where
  | input (e : InputError)
  | illegalArgument (msg : Str)

/-- The part of a `ClusterNodeImpl` that it reads in loops; the entries of the
map of the attributes in the order they came in. -/
structure ClusterNode where
  attrs : List (Str × Int32)
  addrs : List Str
  hosts : List Str

namespace ClusterNode

def findAttribute (attrs : List (Str × Int32)) (name : Str) : Option Int32 := (attrs.find? (·.1 = name)).map (·.2)

/-- `insert`, which leaves an entry of that name as it is. -/
def insertAttribute (attrs : List (Str × Int32)) (name : Str) (pos : Int32) : List (Str × Int32) :=
  if (findAttribute attrs name).isSome then attrs else attrs ++ [(name, pos)]

/-- The loop of `ReadAttributes`: the values are skipped, and where they lie is
kept. -/
def readAttributes (depth : Nat) : Nat → List (Str × Int32) → InteropInputStream →
    Except InputError (List (Str × Int32) × InteropInputStream)
  | 0, attrs, stream => .ok (attrs, stream)
  | n + 1, attrs, stream => do
    let (name, stream) ← readTopString stream
    let pos := stream.pos
    let stream ← skip depth stream
    readAttributes depth n (insertAttribute attrs name pos) stream

/-- `ReadAttributes`, `ReadAddresses` and `ReadHosts`. -/
def read (depth : Nat) (r : ContainerReader) (stream : InteropInputStream) :
    Except InputError (ClusterNode × ContainerReader × InteropInputStream) := do
  let (cnt, stream) ← onStream stream.readInt32
  let (attrs, stream) ← readAttributes depth cnt.toInt.toNat [] stream
  let (addrs, _, r, stream) ← r.readCollection readTopString stream
  let (hosts, _, r, stream) ← r.readCollection readTopString stream
  .ok ({ attrs, addrs, hosts }, r, stream)

/-- `GetAttribute`, where `read` reads an object of the type asked for; the
memory is that of the node. -/
def getAttribute {α : Type} (node : ClusterNode) (mem : List UInt8) (name : Str)
    (read : InteropInputStream → Except InputError (α × InteropInputStream)) : Except AttributeError α :=
  match findAttribute node.attrs name with
  | none => .error (.illegalArgument (ascii "There is no Cluster Node attribute with name requested"))
  | some pos =>
    match (InteropInputStream.ofMemory mem).position pos >>= read with
    | .ok (x, _) => .ok x
    | .error e => .error (.input e)

end ClusterNode

end Binary

end DocumentDbOdbc
