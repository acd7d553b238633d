/-
`Statement`: bound columns and the fetch of a rowset.

`internalFetchRow` fetches as many rows as the application asked for, each
into its own elements of the bound arrays, and fills in the row statuses and
the number of rows. The memory of the application is an argument, since the
offset of the bindings is read from it.
-/
import DocumentDbOdbc.DataQuery

namespace DocumentDbOdbc

open Effect

/-- `type_traits::ToDriverType`, by the values of `SQL_C_…`. -/
def toDriverType (type : Int) : OdbcNativeType :=
  match type with
  | 1 => .char
  | -8 => .wchar
  | -15 | 5 => .signedShort
  | -17 => .unsignedShort
  | -16 | 4 => .signedLong
  | -18 => .unsignedLong
  | 7 => .float
  | 8 => .double
  | -7 => .bit
  | -26 | -6 => .signedTinyint
  | -28 => .unsignedTinyint
  | -25 => .signedBigint
  | -27 => .unsignedBigint
  | -2 => .binary
  | 9 | 91 => .tdate
  | 10 | 92 => .ttime
  | 11 | 93 => .ttimestamp
  | 2 => .numeric
  | -11 => .guid
  | 99 => .default
  | _ => .unsupported

namespace ColumnBindingMap

/-- `SetByteOffset` of every binding. -/
def setByteOffset (m : ColumnBindingMap) (offset : Int) : ColumnBindingMap := fun k =>
  (m k).map fun b => { b with byteOffset := offset }

/-- `SetElementOffset` of every binding. -/
def setElementOffset (m : ColumnBindingMap) (idx : Nat) : ColumnBindingMap := fun k =>
  (m k).map fun b => { b with elementOffset := idx }

end ColumnBindingMap

/-- The pointers are addresses; a null pointer is `none`. -/
structure Statement where
  currentQuery : Option DataQuery := none
  columnBindings : ColumnBindingMap := fun _ => none
  rowsFetched : Option Int := none
  rowStatuses : Option Int := none
  columnBindOffset : Option Int := none
  rowArraySize : UInt64 := 1

/-- `*ptr` of an `int*`. -/
def readInt32 (m : Memory.Mem) (ptr : Int) : Int :=
  (((m ptr).toNat + 256 * (m (ptr + 1)).toNat + 65536 * (m (ptr + 2)).toNat +
    16777216 * (m (ptr + 3)).toNat : Nat) : Int).bmod 4294967296

def Event.write? : Event → Option Memory.Write
  | .write w => some w
  | .record _ => none

/-- The memory an action leaves. -/
def memoryAfter {α : Type} (m : Memory.Mem) (x : Action α) : Memory.Mem :=
  Memory.writes m (x.log.filterMap Event.write?)

namespace Statement

variable (P : Platform)

/-! ## Bindings -/

/-- `InternalBindColumn`; the length is an `SqlLen`. -/
def internalBindColumn (st : Statement) (columnIdx : UInt16) (targetType : Int) (targetValue : Option Int)
    (bufferLength : Int64) (strLengthOrIndicator : Option Int) : Statement × Action SqlResult :=
  if toDriverType targetType = .unsupported then
    (st, diagnosed .sHY003InvalidApplicationBufferType "The argument TargetType was not a valid data type."
      0 0 .error)
  else if bufferLength < 0 then
    (st, diagnosed .sHY090InvalidStringOrBufferLength
      "The value specified for the argument BufferLength was less than 0." 0 0 .error)
  else
    let binding : Option ApplicationDataBuffer :=
      if targetValue.isSome || strLengthOrIndicator.isSome then
        some ⟨toDriverType targetType, targetValue, bufferLength.toInt, strLengthOrIndicator, 0, 0,
          ⟨bufferLength.le_toInt, Int.le_of_lt_add_one bufferLength.toInt_lt⟩⟩
      else none
    ({ st with columnBindings := fun k => if k = columnIdx then binding else st.columnBindings k },
      pure .success)

def safeUnbindAllColumns (st : Statement) : Statement := { st with columnBindings := fun _ => none }

/-! ## Attributes -/

/-- The attributes of a rowset with their values: `SQL_ATTR_ROW_ARRAY_SIZE`,
`SQL_ATTR_ROW_BIND_TYPE`, `SQL_ATTR_ROWS_FETCHED_PTR`, `SQL_ATTR_ROW_STATUS_PTR`
and `SQL_ATTR_ROW_BIND_OFFSET_PTR`. -/
inductive RowAttribute where
  | arraySize (val : UInt64)
  | bindType (rowBindType : UInt64)
  | fetchedPtr (value : Option Int)
  | statusPtr (value : Option Int)
  | bindOffsetPtr (value : Option Int)

def setColumnBindOffsetPtr (st : Statement) (ptr : Option Int) : Statement := { st with columnBindOffset := ptr }

/-- `InternalSetAttribute` of the attributes of a rowset; `SQL_BIND_BY_COLUMN`
is 0. -/
def internalSetAttribute (st : Statement) : RowAttribute → Statement × Action SqlResult
  | .arraySize val =>
    if val < 1 then
      (st, diagnosed .sHY024InvalidAttributeValue "Array size value must be a positive integer value." 0 0
        .error)
    else ({ st with rowArraySize := val }, pure .success)
  | .bindType rowBindType =>
    if rowBindType ≠ 0 then
      (st, diagnosed .sHYC00OptionalFeatureNotImplemented "Only binding by column is currently supported" 0 0
        .error)
    else (st, pure .success)
  | .fetchedPtr value => ({ st with rowsFetched := value }, pure .success)
  | .statusPtr value => ({ st with rowStatuses := value }, pure .success)
  | .bindOffsetPtr value => (st.setColumnBindOffsetPtr value, pure .success)

/-! ## Rows -/

/-- `SqlResultToRowResult`, by the values of `SQL_ROW_…`. -/
def sqlResultToRowResult : SqlResult → Nat
  | .noData => 3
  | .success => 0
  | .successWithInfo => 6
  | _ => 5

/-- `if (rowsFetched) *rowsFetched = n`. -/
def storeRowsFetched (st : Statement) (n : Int) : Action Unit :=
  st.rowsFetched.elim (pure ()) fun p => emit (.write ⟨p, leBytes 4 n⟩)

/-- `if (rowStatuses) rowStatuses[i] = SqlResultToRowResult(res)`. -/
def storeRowStatus (rowStatuses : Option Int) (i : Nat) (res : SqlResult) : Action Unit :=
  rowStatuses.elim (pure ()) fun p => emit (.write ⟨p + 2 * i, leBytes 2 (sqlResultToRowResult res)⟩)

/-- The row counts as fetched. -/
def isFetched (res : SqlResult) : Bool := res = .success || res = .successWithInfo

/-- The row counts as an error. -/
def isError (res : SqlResult) : Bool := !isFetched res && res != .noData

/-- `++n` of an `SQLINTEGER`, if the row counts. -/
def count (n : Int) (counts : Bool) : Int := if counts then (n + 1).bmod 4294967296 else n

/-- The loop of `InternalFetchRow` from row `i` on, with the counters of the
rows and of the errors. -/
def fetchRows (rowStatuses : Option Int) (columnBindings : ColumnBindingMap) :
    (rows : Nat) → (i : Nat) → (fetched errors : Int) → DataQuery → DataQuery × Action (Int × Int)
  | 0, _, fetched, errors, q => (q, pure (fetched, errors))
  | rows + 1, i, fetched, errors, q =>
    let row := q.fetchNextRow P (columnBindings.setElementOffset i)
    match row.2.value with
    | .error _ => (row.1, do
      let _ ← row.2
      pure (fetched, errors))
    | .ok res =>
      let rest := fetchRows rowStatuses columnBindings rows (i + 1) (count fetched (isFetched res))
        (count errors (isError res)) row.1
      (rest.1, do
        let _ ← row.2
        storeRowStatus rowStatuses i res
        rest.2)

/-- The bindings with the offset the application has set. -/
def offsetBindings (st : Statement) (m : Memory.Mem) : ColumnBindingMap :=
  st.columnBindOffset.elim st.columnBindings fun p => st.columnBindings.setByteOffset (readInt32 m p)

/-- The bindings a fetch uses: the offset is read after the number of rows has
been cleared. -/
def rowsetBindings (st : Statement) (m : Memory.Mem) : ColumnBindingMap :=
  st.offsetBindings (memoryAfter m (st.storeRowsFetched 0))

/-- The result of the rowset. -/
def rowsetResult (fetched errors : Int) : SqlResult :=
  if 0 < fetched then
    if errors = 0 then .success else .successWithInfo
  else if errors = 0 then .noData else .error

/-- The element offset of a binding is set before each use, so the statement
does not keep it; the byte offset stays. -/
def internalFetchRow (st : Statement) (m : Memory.Mem) : Statement × Action SqlResult :=
  match st.currentQuery with
  | none =>
    (st, do
      st.storeRowsFetched 0
      diagnosed .s24000InvalidCursorState "Cursor is not in the open state" 0 0 .error)
  | some q =>
    let columnBindings := st.rowsetBindings m
    let rows := fetchRows P st.rowStatuses columnBindings st.rowArraySize.toNat 0 0 0 q
    ({ st with currentQuery := some rows.1, columnBindings := columnBindings }, do
      st.storeRowsFetched 0
      let counts ← rows.2
      st.storeRowsFetched (if counts.1 < 0 then int32Cast st.rowArraySize.toNat else counts.1)
      pure (rowsetResult counts.1 counts.2))

/-! ## Runs -/

/-- A call of the application; a fetch finds some memory. -/
inductive Call where
  | bindColumn (columnIdx : UInt16) (targetType : Int) (targetValue : Option Int) (bufferLength : Int64)
      (strLengthOrIndicator : Option Int)
  | fetchRow (m : Memory.Mem)

/-- The statement a call leaves. -/
def step (st : Statement) : Call → Statement
  | .bindColumn columnIdx targetType targetValue bufferLength strLengthOrIndicator =>
    (st.internalBindColumn columnIdx targetType targetValue bufferLength strLengthOrIndicator).1
  | .fetchRow m => (st.internalFetchRow P m).1

def run (st : Statement) (calls : List Call) : Statement := calls.foldl (step P) st

end Statement

end DocumentDbOdbc
