/-
`query::TypeInfoQuery`: the types of the database as a result set.

The types are read from the JDBC driver by the first `Execute` that finds none,
and are kept. `Execute` does not look at the result of reading them. What the
JDBC driver answers is a `TypeInfoRequest`; what is read as `DATA_TYPE` of a
row is a number there, whatever it is where the column is null.
-/
import DocumentDbOdbc.Lib.SortedSet
import DocumentDbOdbc.MetadataQuery
import Mathlib.Algebra.Order.Ring.Int

namespace DocumentDbOdbc

open Effect ApplicationDataBuffer

/-- What reading on in the type result set comes to: `Next` fails, or it finds
a row and `GetInt` fails or reads its `DATA_TYPE`. -/
inductive TypeRow where
  | nextFails (text : Str)
  | getIntFails (text : Str)
  | row (dataType : Int32)
  deriving DecidableEq, Repr

/-- What the JDBC calls of a request come to. Behind the rows `Next` finds no
more. -/
inductive TypeInfoRequest where
  | getMetaDataFails (text : Str)
  | getTypeInfoFails (text : Str)
  | resultSet (rows : List TypeRow)
  deriving DecidableEq, Repr

structure TypeInfoQuery where
  requestedSqlType : Int16
  executed : Bool := false
  fetched : Bool := false
  binaryTypes : SortedSet Int := .empty
  sqlTypes : SortedSet Int := .empty
  /-- How many types are before the iterator. -/
  cursor : Nat := 0
  deriving DecidableEq

/-- `static_cast<int16_t>`. -/
def TypeRow.binaryType (dataType : Int32) : Int := dataType.toInt16.toInt

/-- `*BinaryToSqlType`; of a type there always is one. -/
def sqlTypeOf (binaryType : Int) : Int := (binaryToSqlType (some binaryType)).getD 0

namespace TypeInfoQuery

/-! ## Execute -/

/-- Both sets get an element. -/
def emplace (q : TypeInfoQuery) (binaryType sqlType : Int) : TypeInfoQuery :=
  { q with binaryTypes := q.binaryTypes.emplace binaryType, sqlTypes := q.sqlTypes.emplace sqlType }

/-- `diag.AddStatusRecord` of a text. -/
def failed (text : Str) : Action SqlResult := do
  emit (.record ⟨.sHY000GeneralError, text, 0, 0⟩)
  pure .error

/-- The loop of `MakeRequestGetTypeInfo`; 0 is `SQL_ALL_TYPES`. -/
def readTypes (q : TypeInfoQuery) : List TypeRow → TypeInfoQuery × Action SqlResult
  | [] => (q, pure .success)
  | .nextFails text :: _ | .getIntFails text :: _ => (q, failed text)
  | .row dataType :: rows =>
    let currentBinaryType := TypeRow.binaryType dataType
    let currentSqlType := sqlTypeOf currentBinaryType
    if currentSqlType ∈ q.sqlTypes then q.readTypes rows
    else if q.requestedSqlType = 0 then (q.emplace currentBinaryType currentSqlType).readTypes rows
    else if q.requestedSqlType.toInt = currentSqlType then (q.emplace currentBinaryType currentSqlType, pure .success)
    else q.readTypes rows

def makeRequestGetTypeInfo (q : TypeInfoQuery) : TypeInfoRequest → TypeInfoQuery × Action SqlResult
  | .getMetaDataFails text | .getTypeInfoFails text => (q, failed text)
  | .resultSet rows => q.readTypes rows

/-- `Execute`; the result of the request is dropped. -/
def execute (q : TypeInfoQuery) (r : TypeInfoRequest) : TypeInfoQuery × Action SqlResult :=
  let request := if q.binaryTypes.toList.length = 0 then q.makeRequestGetTypeInfo r else (q, pure .success)
  ({ request.1 with cursor := 0, executed := true, fetched := false }, do
    let _ ← request.2
    pure .success)

/-! ## Rows -/

/-- The types whose literals stand in quotes. -/
def charTypes : List Int := [1, 12, -1, -15, -9, -16]

/-- The types whose literals begin with `0x`. -/
def binaryLiteralTypes : List Int := [-2, -3, -4, 27]

/-- The `Put` that `GetColumn` makes of a type, none in its default branch. The
type is narrowed to `int8_t` first. -/
def call (binaryType : Int) (columnIdx : UInt16) : Option PutCall :=
  let currentType := (Int8.ofInt binaryType).toInt
  match columnIdx with
  | 1 => some (.string (binaryTypeToSqlTypeName (some currentType)))
  | 2 | 16 => some (putInt16 (binaryToSqlType (some currentType)))
  | 3 => some (putInt32 (binaryTypeColumnSize (some currentType)))
  | 4 =>
    if currentType ∈ charTypes then some (.string (some (ascii "'")))
    else if currentType ∈ binaryLiteralTypes then some (.string (some (ascii "0x")))
    else some .null
  | 5 => if currentType ∈ charTypes then some (.string (some (ascii "'"))) else some .null
  | 7 => some (putInt32 (some (binaryTypeNullability currentType)))
  | 8 => some (putInt16 (some (if currentType ∈ charTypes then 1 else 0)))
  | 9 => some (putInt16 (some 3))
  | 10 => some (putInt16 (some (if binaryTypeUnsigned (some currentType) then 1 else 0)))
  | 11 | 12 => some (putInt16 (some 0))
  | 14 | 15 => some (putInt16 (binaryTypeDecimalDigits (some currentType)))
  | 18 => some (putInt32 (binaryTypeNumPrecRadix (some currentType)))
  | 6 | 13 | 17 | 19 => some .null
  | _ => none

variable (P : Platform)

/-- A column of a type. -/
def putColumn (binaryType : Int) (columnIdx : UInt16) (b : ApplicationDataBuffer) : Action SqlResult :=
  match call binaryType columnIdx with
  | none => pure .success
  | some call => do
    let _ ← b.writesOf (b.put P call)
    pure .success

def getColumn (q : TypeInfoQuery) (columnIdx : UInt16) (b : ApplicationDataBuffer) : Action SqlResult :=
  if !q.executed then diagnosed .sHY010SequenceError "Query was not executed." 0 0 .error
  else
    match q.binaryTypes.toList[q.cursor]? with
    | none => diagnosed .s24000InvalidCursorState "Cursor has reached end of the result set." 0 0 .error
    | some binaryType => putColumn P binaryType columnIdx b

/-- The loop of `FetchNextRow` over these keys of the bindings. -/
def getColumns (q : TypeInfoQuery) (columnBindings : ColumnBindingMap) : List Nat → Action SqlResult
  | [] => pure .success
  | i :: is =>
    match columnBindings (UInt16.ofNat i) with
    | none => q.getColumns columnBindings is
    | some b => do
      let _ ← q.getColumn P (UInt16.ofNat i) b
      q.getColumns columnBindings is

/-- The iterator moves on from the second fetch on, but not past the end. -/
def moveCursor (q : TypeInfoQuery) : TypeInfoQuery :=
  if !q.fetched then { q with fetched := true }
  else if q.cursor ≠ q.binaryTypes.toList.length then { q with cursor := q.cursor + 1 }
  else q

def fetchNextRow (q : TypeInfoQuery) (columnBindings : ColumnBindingMap) : TypeInfoQuery × Action SqlResult :=
  if !q.executed then (q, diagnosed .sHY010SequenceError "Query was not executed." 0 0 .error)
  else
    let q := q.moveCursor
    if q.cursor = q.binaryTypes.toList.length then (q, pure .noData)
    else (q, q.getColumns P columnBindings MetadataQuery.bindingKeys)

def close (q : TypeInfoQuery) : TypeInfoQuery × SqlResult :=
  ({ q with cursor := q.binaryTypes.toList.length, executed := false }, .success)

/-! ## Runs -/

/-- A call of one of the operations. -/
inductive Call where
  | execute (r : TypeInfoRequest)
  | fetchNextRow (columnBindings : ColumnBindingMap)
  | getColumn (columnIdx : UInt16) (b : ApplicationDataBuffer)
  | close

/-- The query a call leaves. -/
def step (q : TypeInfoQuery) : Call → TypeInfoQuery
  | .execute r => (q.execute r).1
  | .fetchNextRow columnBindings => (q.fetchNextRow P columnBindings).1
  | .getColumn _ _ => q
  | .close => q.close.1

def run (q : TypeInfoQuery) (calls : List Call) : TypeInfoQuery := calls.foldl (step P) q

end TypeInfoQuery

end DocumentDbOdbc
