/-
`app::Parameter` and `app::ParameterSet`: bound parameters, the data an
application sends for them during an execution, and the rows that are written.

A row is the list of the values the writer is called for. `Parameter::Write`
looks at the indicator of the first element, without the offset, before it goes
to the element of the row; what was stored by `PutData` stays through an
assignment, and the mark of a null is read nowhere.
-/
import DocumentDbOdbc.BufferInput
import DocumentDbOdbc.Lib.SortedMap

namespace DocumentDbOdbc

instance linearOrderUInt16 : LinearOrder UInt16 where
  le_refl := UInt16.le_refl
  le_trans _ _ _ := UInt16.le_trans
  le_antisymm _ _ := UInt16.le_antisymm
  le_total := UInt16.le_total
  lt_iff_le_not_ge a b := by rw [UInt16.lt_iff_toNat_lt, UInt16.le_iff_toNat_le, UInt16.le_iff_toNat_le]; omega
  toDecidableLE := inferInstance
  toDecidableEq := inferInstance
  toDecidableLT := inferInstance

namespace App

open ApplicationDataBuffer

/-- A value of a row: one call of the writer. -/
inductive WireValue where
  | null
  | string (s : Str)
  | int8 (v : Int)
  | bool (v : Bool)
  | int16 (v : Int)
  | int32 (v : Int)
  | int64 (v : Int)
  | float (bits : UInt32)
  | double (bits : UInt64)
  | date (milliseconds : Int)
  | timestamp (t : Timestamp)
  | time (milliseconds : Int)
  | byteArray (bytes : List UInt8)
  | guid (g : Guid)
  | decimal (d : Common.Decimal)
  deriving DecidableEq

/-- The cases `Parameter::Write` tells apart. -/
inductive ParameterCase where
  | string | smallint | integer | float | double | tinyint | bit | bigint | date | timestamp | time | binary | guid | decimal
  | other
  deriving DecidableEq, Repr

/-- The case of a type, by the values of `SQL_…`. -/
def ParameterCase.ofSqlType (sqlType : Int) : ParameterCase :=
  if sqlType ∈ [1, 12, -1, -8, -9, -10] then .string
  else if sqlType = 5 then .smallint
  else if sqlType = 4 then .integer
  else if sqlType = 6 then .float
  else if sqlType = 8 then .double
  else if sqlType = -6 then .tinyint
  else if sqlType = -7 then .bit
  else if sqlType = -5 then .bigint
  else if sqlType = 91 ∨ sqlType = 9 then .date
  else if sqlType = 93 ∨ sqlType = 11 then .timestamp
  else if sqlType = 92 ∨ sqlType = 10 then .time
  else if sqlType ∈ [-2, -3, -4] then .binary
  else if sqlType = -11 then .guid
  else if sqlType = 3 then .decimal
  else .other

/-! ## A parameter -/

/-- `Parameter`. -/
structure Parameter where
  buffer : ApplicationDataBuffer
  sqlType : Int
  columnSize : Nat
  decDigits : Int
  nullData : Bool := false
  storedData : List UInt8 := []

namespace Parameter

/-- `Parameter()`. -/
def empty : Parameter := ⟨⟨.unsupported, none, 0, none, 0, 0, by decide⟩, 0, 0, 0, false, []⟩

/-- `operator=`. -/
def assign (p other : Parameter) : Parameter :=
  { p with
    buffer := other.buffer
    sqlType := other.sqlType
    columnSize := other.columnSize
    decDigits := other.decDigits }

variable (L : InputLib)

/-- `WriteInt8Array(GetData(), *GetResLen())`; there is no value without an
indicator, and a null one for a null pointer. -/
def writeBinary (buf : ApplicationDataBuffer) (m : Memory.Mem) : Except Fault (List WireValue) :=
  match buf.indicator m with
  | none => .ok []
  | some len =>
    let paramLen := Int32.ofInt len
    match buf.getData with
    | none => .ok [.null]
    | some p =>
      if paramLen < 0 then .error .outOfRange
      else .ok [.byteArray (Memory.read m p paramLen.toInt.toNat)]

/-- The `switch` of `Write`. -/
def writeCase (columnSize : Nat) (buf : ApplicationDataBuffer) (m : Memory.Mem) :
    ParameterCase → Except Fault (List WireValue)
  | .string => (buf.getString L m columnSize).map fun s => [.string s]
  | .smallint => (buf.getNum L.platform L.outside 2 m).map fun v => [.int16 v]
  | .integer => (buf.getNum L.platform L.outside 4 m).map fun v => [.int32 v]
  | .float => (buf.getFloat L m).map fun x => [.float x]
  | .double => (buf.getDouble L m).map fun x => [.double x]
  | .tinyint => (buf.getNum L.platform L.outside 1 m).map fun v => [.int8 v]
  | .bit => (buf.getNum L.platform L.outside 1 m).map fun v => [.bool (v ≠ 0)]
  | .bigint => (buf.getNum L.platform L.outside 8 m).map fun v => [.int64 v]
  | .date => (buf.getDate L m).map fun ms => [.date ms]
  | .timestamp => (buf.getTimestamp L m).map fun t => [.timestamp t]
  | .time => (buf.getTime L m).map fun ms => [.time ms]
  | .binary => writeBinary buf m
  | .guid => (buf.getGuid L.platform L.unassigned m).map fun g => [.guid g]
  | .decimal => (buf.getDecimal L m).map fun d => [.decimal d]
  | .other => .ok []

/-- A size as an `SqlLen`. -/
def sqlLen (n : Nat) : Int := (n : Int).bmod 18446744073709551616

theorem sqlLen_range (n : Nat) : -9223372036854775808 ≤ sqlLen n ∧ sqlLen n ≤ 9223372036854775807 := by
  have hlow := @Int.le_bmod n 18446744073709551616 (by decide)
  have hhigh := @Int.bmod_lt n 18446744073709551616 (by decide)
  unfold sqlLen
  omega

/-- Where `Write` keeps the length of the stored data, and before it the data. -/
def storedMemory (data : List UInt8) : Memory.Mem :=
  Memory.writes L.heap [⟨0, leBytes 8 (sqlLen data.length)⟩, ⟨8, data⟩]

/-- `ApplicationDataBuffer(GetType(), &storedData[0], storedDataLen, &storedDataLen)`. -/
def storedBuffer (type : OdbcNativeType) (data : List UInt8) : ApplicationDataBuffer :=
  ⟨type, some 8, sqlLen data.length, some 0, 0, 0, sqlLen_range data.length⟩

/-- The buffer of the element of a row. -/
def elementBuffer (p : Parameter) (offset : Int) (idx : Nat) : ApplicationDataBuffer :=
  { p.buffer with byteOffset := offset, elementOffset := idx }

/-- `Write`. -/
def write (p : Parameter) (m : Memory.Mem) (offset : Int) (idx : Nat) : Except Fault (List WireValue) :=
  if p.buffer.getInputSize m = -1 then .ok [.null]
  else if p.buffer.isDataAtExec m then
    if p.storedData = [] then .error .outOfRange  -- `&storedData[0]`
    else
      writeCase L p.columnSize (storedBuffer p.buffer.type p.storedData) (storedMemory L p.storedData)
        (.ofSqlType p.sqlType)
  else writeCase L p.columnSize (p.elementBuffer offset idx) m (.ofSqlType p.sqlType)

/-! ## Data at execution -/

/-- The room that `reserve` is called for is negative, so that it throws. -/
def reserveThrows (p : Parameter) (m : Memory.Mem) : Bool :=
  p.buffer.isDataAtExec m && p.buffer.getDataAtExecSize m < 0

/-- `ResetStoredData`, up to the room it reserves. -/
def resetStoredData (p : Parameter) : Parameter := { p with storedData := [] }

def isDataReady (p : Parameter) (m : Memory.Mem) : Bool :=
  !p.buffer.isDataAtExec m || sqlLen p.storedData.length = p.buffer.getDataAtExecSize m

/-- `memcpy` from the data of the application. -/
def copyFrom (m : Memory.Mem) (data : Option Int) (n : Nat) : Except Fault (List UInt8) :=
  match data with
  | none => .error .nullPointer
  | some a => .ok (Memory.read m a n)

/-- `PutData`; `-5` is `SQL_DEFAULT_PARAM`, `-1` is `SQL_NULL_DATA` and `-3` is
`SQL_NTSL`. -/
def putData (p : Parameter) (m : Memory.Mem) (data : Option Int) (len : Int) : Except Fault Parameter :=
  if len = -5 then .ok p
  else if len = -1 then .ok { p with nullData := true }
  else if p.buffer.type = .char ∨ p.buffer.type = .binary then
    let slen : Int :=
      if p.buffer.type = .char ∧ len = -3 then
        match data with
        | none => 0
        | some a => (readText m 1 18446744073709551616 a).length
      else len
    if slen ≤ 0 then .ok p
    else (copyFrom m data slen.toNat).map fun bytes => { p with storedData := p.storedData ++ bytes }
  else
    let dataSize := p.buffer.getDataAtExecSize m
    if dataSize < 0 then .error .exception
    else if dataSize = 0 then .error .outOfRange  -- `&storedData[0]`
    else (copyFrom m data dataSize.toNat).map fun bytes => { p with storedData := bytes }

end Parameter

/-! ## The set -/

/-- `ParameterSet`; the members that batches are counted with are those of
`BatchQuery`. -/
structure ParameterSet where
  parameters : SortedMap UInt16 Parameter := .empty
  paramTypes : List Int := []
  paramBindOffset : Option Int := none
  paramSetSize : Nat := 1
  paramSetPos : Nat := 0
  currentParamIdx : UInt16 := 0
  typesSet : Bool := false

namespace ParameterSet

/-- `parameters[paramIdx] = param`. -/
def bindParameter (s : ParameterSet) (paramIdx : UInt16) (param : Parameter) : ParameterSet :=
  { s with parameters := s.parameters.upsert paramIdx fun old => (old.getD .empty).assign param }

def unbindParameter (s : ParameterSet) (paramIdx : UInt16) : ParameterSet :=
  { s with parameters := s.parameters.erase paramIdx }

def getParameter (s : ParameterSet) (idx : UInt16) : Option Parameter := s.parameters.find idx

def getSelectedParameter (s : ParameterSet) : Option Parameter := s.getParameter s.currentParamIdx

def isParameterSelected (s : ParameterSet) : Bool := s.currentParamIdx ≠ 0

/-- `PutData` of the parameter. -/
def putData (s : ParameterSet) (idx : UInt16) (m : Memory.Mem) (data : Option Int) (len : Int) : Except Fault ParameterSet :=
  match s.getParameter idx with
  | none => .ok s
  | some p => (p.putData m data len).map fun p' => { s with parameters := s.parameters.upsert idx fun _ => p' }

/-- The first parameter whose data cannot be reserved: the loop of `Prepare`
ends there. -/
def prepareStop (s : ParameterSet) (m : Memory.Mem) : Option UInt16 :=
  (s.parameters.entries.find? fun e => e.2.reserveThrows m).map (·.1)

/-- The set that `Prepare` leaves, and whether it returns. -/
def prepare (s : ParameterSet) (m : Memory.Mem) : ParameterSet × Bool :=
  ({ s with
      paramTypes := []
      typesSet := false
      paramSetPos := 0
      parameters := s.parameters.mapWithKey fun k p =>
        if (s.prepareStop m).all fun stop => k ≤ stop then p.resetStoredData else p },
    (s.prepareStop m).isNone)

def isDataAtExecNeeded (s : ParameterSet) (m : Memory.Mem) : Bool :=
  s.parameters.entries.any fun e => !e.2.isDataReady m

/-- The set after `SelectNextParameter`, and the number of the parameter. -/
def selectNextParameter (s : ParameterSet) (m : Memory.Mem) : ParameterSet × Option UInt16 :=
  match s.parameters.entries.find? fun e => !e.2.isDataReady m with
  | some e => ({ s with currentParamIdx := e.1 }, some e.1)
  | none => (s, none)

/-- A parameter is selected exactly if data is needed; it is one that waits for it. -/
theorem selectNextParameter_spec (s : ParameterSet) (m : Memory.Mem) :
    (s.selectNextParameter m).2.isSome = s.isDataAtExecNeeded m ∧
      ∀ k ∈ (s.selectNextParameter m).2, ∃ p, (s.selectNextParameter m).1.getSelectedParameter = some p ∧
        p.isDataReady m = false := by
  have hneeded : s.isDataAtExecNeeded m = (s.parameters.entries.find? fun e => !e.2.isDataReady m).isSome := by
    rw [Bool.eq_iff_iff, List.find?_isSome, isDataAtExecNeeded, List.any_eq_true]
  unfold selectNextParameter
  rw [hneeded]
  cases hfind : s.parameters.entries.find? fun e => !e.2.isDataReady m with
  | none => exact ⟨rfl, fun k hk => by cases hk⟩
  | some e =>
    refine ⟨rfl, fun k _ => ⟨e.2, ?_, by simpa using List.find?_some hfind⟩⟩
    exact (s.parameters.mem_entries e.1).mp (List.mem_of_find?_eq_some hfind)

/-! ## Rows -/

variable (L : InputLib)

/-- The parameters from the one after `prev` on; a null for each number that is
not bound. -/
def writeFrom (m : Memory.Mem) (offset : Int) (idx : Nat) (prev : Nat) :
    List (UInt16 × Parameter) → Except Fault (List WireValue)
  | [] => .ok []
  | e :: rest => do
    let value ← e.2.write L m offset idx
    let values ← writeFrom m offset idx e.1.toNat rest
    .ok (List.replicate (e.1.toNat - prev - 1) .null ++ value ++ values)

/-- `paramBindOffset ? *paramBindOffset : 0`. -/
def appOffset (s : ParameterSet) (m : Memory.Mem) : Int :=
  match s.paramBindOffset with
  | none => 0
  | some a => readInteger m a 4 true

def writeRow (s : ParameterSet) (m : Memory.Mem) (idx : Nat) : Except Fault (List WireValue) :=
  writeFrom L m (s.appOffset m) idx 0 s.parameters.entries

def calculateRowLen (s : ParameterSet) : Nat :=
  match s.parameters.entries.getLast? with
  | none => 0
  | some e => e.1.toNat

end ParameterSet

end App

end DocumentDbOdbc
