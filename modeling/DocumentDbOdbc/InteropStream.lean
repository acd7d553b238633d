/-
The interop streams of the binary protocol, and the raw mode of the reader and
the writer over them.

Positions, capacities and lengths are 32-bit numbers. An access outside the
memory block is a fault, and so is a failed assertion; what the code throws is
an error with its text. `store_spec` and `read_spec` say when a write and a read
go through.
-/
import DocumentDbOdbc.CommonUtils
import DocumentDbOdbc.Lib.Bytes

namespace DocumentDbOdbc

namespace Interop

/-- How a call on a stream can end other than by returning. -/
inductive StreamError where
  /-- `DOCUMENTDB_ERR_MEMORY`, with the values its text lists. -/
  | memory (msg : Str) (len pos requested : Int32)
  /-- `DOCUMENTDB_ERR_BINARY`. -/
  | binary (msg : Str)
  | lengthError
  | outOfBounds
  | assertionFailed
  deriving DecidableEq, Repr

/-! ## Output -/

/-- `InteropOutputStream`: the bytes below its position. -/
structure InteropOutputStream where
  data : List UInt8
  cap : Int32
  pos : Int32
  deriving DecidableEq, Repr

namespace InteropOutputStream

/-- A stream at the start of a memory block. -/
def ofMemory (cap : Int32) : InteropOutputStream := ⟨[], cap, 0⟩

/-- `EnsureCapacity`; `Reallocate` gives at least the capacity asked for. -/
def ensureCapacity (s : InteropOutputStream) (reqCap : Int32) : InteropOutputStream :=
  if reqCap > s.cap then
    let newCap := s.cap <<< 1
    { s with cap := if newCap < reqCap then reqCap else newCap }
  else s

/-- `DOCUMENTDB_INTEROP_OUT_WRITE` and `CopyAndShift`. -/
def store (s : InteropOutputStream) (bytes : List UInt8) : Except StreamError InteropOutputStream :=
  let len := Int32.ofNat bytes.length
  let s := s.ensureCapacity (s.pos + len)
  if s.pos.toInt + bytes.length ≤ s.cap.toInt then .ok { s with data := s.data ++ bytes, pos := s.pos + len }
  else .error .outOfBounds

/-- The position is the number of bytes written. -/
def WellFormed (s : InteropOutputStream) : Prop := s.pos.toInt = s.data.length

theorem WellFormed.ofMemory (cap : Int32) : (ofMemory cap).WellFormed := rfl

theorem pos_ensureCapacity (s : InteropOutputStream) (reqCap : Int32) : (s.ensureCapacity reqCap).pos = s.pos := by
  unfold ensureCapacity
  split <;> rfl

theorem data_ensureCapacity (s : InteropOutputStream) (reqCap : Int32) : (s.ensureCapacity reqCap).data = s.data := by
  unfold ensureCapacity
  split <;> rfl

theorem le_cap_ensureCapacity (s : InteropOutputStream) (reqCap : Int32) : reqCap ≤ (s.ensureCapacity reqCap).cap := by
  unfold ensureCapacity
  split
  · dsimp only
    split
    · exact Int32.le_refl reqCap
    · next h => exact Int32.not_lt.mp h
  · next h => exact Int32.not_lt.mp h

/-- **A write** goes through exactly when the stream stays below `2 ^ 31`
bytes. -/
theorem store_spec {s : InteropOutputStream} (h : s.WellFormed) (bytes : List UInt8) :
    if s.data.length + bytes.length < 2 ^ 31 then
      ∃ s', s.store bytes = .ok s' ∧ s'.WellFormed ∧ s'.data = s.data ++ bytes
    else s.store bytes = .error .outOfBounds := by
  unfold WellFormed at h
  unfold store
  dsimp only
  rw [pos_ensureCapacity, data_ensureCapacity]
  have hcap := le_cap_ensureCapacity s (s.pos + Int32.ofNat bytes.length)
  generalize (s.ensureCapacity (s.pos + Int32.ofNat bytes.length)).cap = cap at hcap ⊢
  have hmax := cap.toInt_lt
  split
  · next hfit =>
    have hadd : (s.pos + Int32.ofNat bytes.length).toInt = s.data.length + bytes.length := by
      have hlen : (Int32.ofNat bytes.length).toInt = bytes.length := toInt32_ofNat (by omega)
      rw [toInt32_add (by omega) (by omega), h, hlen]
    rw [Int32.le_iff_toInt_le, hadd] at hcap
    rw [if_pos (by omega)]
    refine ⟨_, rfl, ?_, rfl⟩
    rw [WellFormed]
    dsimp only
    rw [hadd, List.length_append]
    push_cast
    rfl
  · rw [if_neg (by omega)]

end InteropOutputStream

/-! ## Input -/

/-- `InteropInputStream`. -/
structure InteropInputStream where
  data : List UInt8
  len : Int32
  pos : Int32
  deriving DecidableEq, Repr

namespace InteropInputStream

/-- A stream over a memory block of that length. -/
def ofMemory (data : List UInt8) : InteropInputStream := ⟨data, Int32.ofNat data.length, 0⟩

def ensureEnoughData (s : InteropInputStream) (cnt : Int32) : Except StreamError Unit :=
  if s.len - s.pos ≥ cnt then .ok ()
  else .error (.memory (ascii "Not enough data in the stream") s.len s.pos cnt)

/-- `data[pos]` to `data[pos + cnt - 1]`. -/
def load (s : InteropInputStream) (cnt : Int32) : Except StreamError (List UInt8) :=
  if 0 ≤ s.pos.toInt ∧ 0 ≤ cnt.toInt ∧ s.pos.toInt + cnt.toInt ≤ s.data.length then
    .ok ((s.data.drop s.pos.toInt.toNat).take cnt.toInt.toNat)
  else .error .outOfBounds

def shift (s : InteropInputStream) (cnt : Int32) : InteropInputStream := { s with pos := s.pos + cnt }

/-- `DOCUMENTDB_INTEROP_IN_READ` and `CopyAndShift`. -/
def read (s : InteropInputStream) (cnt : Int32) : Except StreamError (List UInt8 × InteropInputStream) := do
  s.ensureEnoughData cnt
  let bytes ← s.load cnt
  .ok (bytes, s.shift cnt)

/-- The stream stands before these bytes. -/
structure At (s : InteropInputStream) (bytes : List UInt8) : Prop where
  len : s.len.toInt = s.data.length
  nonneg : 0 ≤ s.pos.toInt
  le : s.pos.toInt ≤ s.data.length
  drop : s.data.drop s.pos.toInt.toNat = bytes

/-- **A read** of bytes that are there. -/
theorem read_spec {s : InteropInputStream} {cnt : Int32} {bytes rest : List UInt8} (h : s.At (bytes ++ rest))
    (hcnt : cnt.toInt = bytes.length) : s.read cnt = .ok (bytes, s.shift cnt) ∧ (s.shift cnt).At rest := by
  obtain ⟨hlen, hnonneg, hle, hdrop⟩ := h
  have hlength := congrArg List.length hdrop
  rw [List.length_drop, List.length_append] at hlength
  have hmax := s.len.toInt_lt
  have hsub : (s.len - s.pos).toInt = s.data.length - s.pos.toInt := by
    rw [toInt32_sub (by omega) (by omega), hlen]
  have hpos : (s.pos + cnt).toInt = s.pos.toInt + bytes.length := by
    rw [toInt32_add (by omega) (by omega), hcnt]
  have henough : cnt ≤ s.len - s.pos := by
    rw [Int32.le_iff_toInt_le, hsub, hcnt]
    omega
  constructor
  · unfold read ensureEnoughData load
    rw [if_pos henough, if_pos ⟨hnonneg, by omega, by omega⟩, hdrop, hcnt, Int.toNat_natCast, List.take_left]
    rfl
  · refine ⟨hlen, ?_, ?_, ?_⟩
    · rw [shift, hpos]
      omega
    · rw [shift, hpos]
      dsimp only
      omega
    · have hnat : (s.pos.toInt + bytes.length).toNat = s.pos.toInt.toNat + bytes.length := by omega
      rw [shift, hpos, hnat, ← List.drop_drop, hdrop, List.drop_left]

end InteropInputStream

end Interop

namespace Binary

open Interop

/-- The four bytes of an `int32_t` are read back. -/
theorem int32_leBytes (x : Int32) : Int32.ofNat (Bytes.value (leBytes 4 x.toInt)) = x := by
  have hvalue : (Bytes.value (leBytes 4 x.toInt) : Int) = x.toInt % 256 ^ 4 := Bytes.value_digits x.toInt 4
  have hlow := x.le_toInt
  have hhigh := x.toInt_lt
  rw [← Int32.toInt_inj, Int32.toInt_ofNat', hvalue, show ((256 : Int) ^ 4) = (Int32.size : Nat) from rfl,
    Int.emod_bmod]
  exact Int.bmod_eq_of_le hlow (by simp; omega)

/-! ## The writer -/

/-- `BinaryWriterImpl`, of which raw writing looks at these fields. -/
structure BinaryWriterImpl where
  stream : InteropOutputStream
  elemId : Int32
  rawPos : Int32
  deriving DecidableEq, Repr

namespace BinaryWriterImpl

/-- `BinaryWriterImpl(stream, metaMgr)`. -/
def ofStream (stream : InteropOutputStream) : BinaryWriterImpl := ⟨stream, 0, 0⟩

/-- `CheckRawMode(true)` and `CheckSingleMode(true)`. -/
def checkRaw (w : BinaryWriterImpl) : Except StreamError Unit :=
  if w.rawPos = -1 then .error (.binary (ascii "Operation can be performed only in raw mode."))
  else if w.elemId ≠ 0 then .error (.binary (ascii "Operation cannot be performed when container is being written."))
  else .ok ()

/-- `BinaryUtils::WriteInt8Array(GetStream(), …)`. -/
def writeInt8Array (w : BinaryWriterImpl) (bytes : List UInt8) : Except StreamError BinaryWriterImpl := do
  let stream ← w.stream.store bytes
  .ok { w with stream := stream }

/-- `WritePrimitiveRaw`. -/
def writePrimitiveRaw (w : BinaryWriterImpl) (bytes : List UInt8) : Except StreamError BinaryWriterImpl := do
  w.checkRaw
  w.writeInt8Array bytes

def writeInt8 (w : BinaryWriterImpl) (val : UInt8) : Except StreamError BinaryWriterImpl := w.writePrimitiveRaw [val]

def writeInt32 (w : BinaryWriterImpl) (val : Int32) : Except StreamError BinaryWriterImpl :=
  w.writePrimitiveRaw (leBytes 4 val.toInt)

/-- A writer in raw mode, outside of containers. -/
structure Ready (w : BinaryWriterImpl) : Prop where
  raw : w.rawPos ≠ -1
  single : w.elemId = 0
  stream : w.stream.WellFormed

theorem Ready.ofStream {s : InteropOutputStream} (h : s.WellFormed) : (ofStream s).Ready :=
  ⟨show (0 : Int32) ≠ -1 by decide, rfl, h⟩

/-- The function writes just these bytes, where the stream takes them. -/
def Writes (f : BinaryWriterImpl → Except StreamError BinaryWriterImpl) (bytes : List UInt8) : Prop :=
  ∀ w : BinaryWriterImpl, w.Ready →
    if w.stream.data.length + bytes.length < 2 ^ 31 then
      ∃ w', f w = .ok w' ∧ w'.Ready ∧ w'.stream.data = w.stream.data ++ bytes
    else ∃ e, f w = .error e

theorem writes_writeInt8Array (bytes : List UInt8) : Writes (·.writeInt8Array bytes) bytes := by
  intro w h
  have hstore := InteropOutputStream.store_spec h.stream bytes
  split at hstore
  · next hfit =>
    obtain ⟨stream, hs, hwf, hdata⟩ := hstore
    rw [if_pos hfit]
    refine ⟨{ w with stream := stream }, ?_, ⟨h.raw, h.single, hwf⟩, hdata⟩
    simp only [writeInt8Array, hs]
    rfl
  · next hfit =>
    rw [if_neg hfit]
    refine ⟨.outOfBounds, ?_⟩
    simp only [writeInt8Array, hstore]
    rfl

theorem writes_writePrimitiveRaw (bytes : List UInt8) : Writes (·.writePrimitiveRaw bytes) bytes := by
  intro w h
  have hcheck : w.checkRaw = .ok () := by
    rw [checkRaw, if_neg h.raw, if_neg (not_not.mpr h.single)]
  have hwrite : w.writePrimitiveRaw bytes = w.writeInt8Array bytes := by
    rw [writePrimitiveRaw, hcheck]
    rfl
  dsimp only
  rw [hwrite]
  exact writes_writeInt8Array bytes w h

/-- Writes in a row. -/
theorem Writes.bind {f g : BinaryWriterImpl → Except StreamError BinaryWriterImpl} {l l' : List UInt8} (hf : Writes f l)
    (hg : Writes g l') : Writes (fun w => f w >>= g) (l ++ l') := by
  intro w h
  have hfirst := hf w h
  dsimp only
  split at hfirst
  · next hfit =>
    obtain ⟨w', hw, hready, hdata⟩ := hfirst
    have hsecond := hg w' hready
    rw [hdata, List.length_append, Nat.add_assoc, ← List.length_append] at hsecond
    rw [hw]
    simp only [List.append_assoc] at hsecond ⊢
    exact hsecond
  · next hfit =>
    obtain ⟨e, he⟩ := hfirst
    rw [if_neg (by rw [List.length_append]; omega), he]
    exact ⟨e, rfl⟩

end BinaryWriterImpl

/-! ## The reader -/

/-- `BinaryReaderImpl`, of which raw reading looks at these fields. -/
structure BinaryReaderImpl where
  stream : InteropInputStream
  rawMode : Bool
  elemId : Int32
  deriving DecidableEq, Repr

namespace BinaryReaderImpl

/-- `BinaryReaderImpl(stream)`. -/
def ofStream (stream : InteropInputStream) : BinaryReaderImpl := ⟨stream, true, 0⟩

/-- `CheckRawMode(true)` and `CheckSingleMode(true)`. -/
def checkRaw (r : BinaryReaderImpl) : Except StreamError Unit :=
  if !r.rawMode then .error (.binary (ascii "Operation can be performed only in raw mode."))
  else if r.elemId ≠ 0 then .error (.binary (ascii "Operation cannot be performed when container is being read."))
  else .ok ()

/-- `ReadRaw`, of a value of that many bytes. -/
def readRaw (r : BinaryReaderImpl) (cnt : Int32) : Except StreamError (List UInt8 × BinaryReaderImpl) := do
  r.checkRaw
  let (bytes, stream) ← r.stream.read cnt
  .ok (bytes, { r with stream := stream })

def readInt8 (r : BinaryReaderImpl) : Except StreamError (UInt8 × BinaryReaderImpl) := do
  let (bytes, r) ← r.readRaw 1
  .ok (UInt8.ofNat (Bytes.value bytes), r)

def readInt32 (r : BinaryReaderImpl) : Except StreamError (Int32 × BinaryReaderImpl) := do
  let (bytes, r) ← r.readRaw 4
  .ok (Int32.ofNat (Bytes.value bytes), r)

/-- `BinaryUtils::ReadInt8Array(GetStream(), …)`. -/
def readInt8Array (r : BinaryReaderImpl) (len : Int32) : Except StreamError (List UInt8 × BinaryReaderImpl) := do
  let (bytes, stream) ← r.stream.read len
  .ok (bytes, { r with stream := stream })

/-- A reader in raw mode, outside of containers, before these bytes. -/
structure At (r : BinaryReaderImpl) (bytes : List UInt8) : Prop where
  raw : r.rawMode = true
  single : r.elemId = 0
  stream : r.stream.At bytes

/-- The function takes just these bytes and returns the value. -/
def Reads {α : Type} (f : BinaryReaderImpl → Except StreamError (α × BinaryReaderImpl)) (bytes : List UInt8) (a : α) :
    Prop :=
  ∀ (r : BinaryReaderImpl) (rest : List UInt8), r.At (bytes ++ rest) →
    ∃ r', f r = .ok (a, r') ∧ r'.At rest ∧ r'.stream.data = r.stream.data

theorem reads_readInt8Array {len : Int32} {bytes : List UInt8} (h : len.toInt = bytes.length) :
    Reads (·.readInt8Array len) bytes bytes := by
  intro r rest hat
  obtain ⟨hread, hrest⟩ := InteropInputStream.read_spec hat.stream h
  refine ⟨{ r with stream := r.stream.shift len }, ?_, ⟨hat.raw, hat.single, hrest⟩, rfl⟩
  simp only [readInt8Array, hread]
  rfl

theorem reads_readRaw {cnt : Int32} {bytes : List UInt8} (h : cnt.toInt = bytes.length) :
    Reads (·.readRaw cnt) bytes bytes := by
  intro r rest hat
  have hcheck : r.checkRaw = .ok () := by
    rw [checkRaw, hat.raw, if_neg (by decide), if_neg (not_not.mpr hat.single)]
  have hread : r.readRaw cnt = r.readInt8Array cnt := by
    rw [readRaw, hcheck]
    rfl
  dsimp only
  rw [hread]
  exact reads_readInt8Array h r rest hat

theorem reads_readInt8 (x : UInt8) : Reads readInt8 [x] x := by
  intro r rest hat
  obtain ⟨r', hread, hrest, hdata⟩ := (reads_readRaw rfl : Reads (·.readRaw 1) [x] [x]) r rest hat
  refine ⟨r', ?_, hrest, hdata⟩
  dsimp only at hread
  rw [readInt8, hread]
  show Except.ok (UInt8.ofNat (Bytes.value [x]), r') = _
  rw [Bytes.value_cons, Bytes.value_nil, Nat.mul_zero, Nat.add_zero, UInt8.ofNat_toNat]

theorem reads_readInt32 (x : Int32) : Reads readInt32 (leBytes 4 x.toInt) x := by
  intro r rest hat
  obtain ⟨r', hread, hrest, hdata⟩ := @reads_readRaw 4 (leBytes 4 x.toInt) (by rw [length_leBytes]; rfl) r rest hat
  refine ⟨r', ?_, hrest, hdata⟩
  dsimp only at hread
  rw [readInt32, hread]
  show Except.ok (Int32.ofNat (Bytes.value (leBytes 4 x.toInt)), r') = _
  rw [int32_leBytes]

end BinaryReaderImpl

end Binary

end DocumentDbOdbc
