/-
`query::TableMetadataQuery`, `ColumnMetadataQuery`, `PrimaryKeysQuery` and
`ForeignKeysQuery`: the metadata of the database as result sets.

The four keep a vector of rows and an iterator into it. They differ in what
`GetColumn` puts of a row, in what it does where there is no row or no column,
and in whether `Close` forgets that a row was fetched. An iterator is valid for
one filling of the vector only; using it otherwise, or advancing or
dereferencing it at the end, is `outOfRange`.
-/
import DocumentDbOdbc.DataQuery
import DocumentDbOdbc.TypeTraits

namespace DocumentDbOdbc

open Effect ApplicationDataBuffer

/-! ## Rows -/

/-- `meta::TableMeta`. -/
structure TableMeta where
  catalogName : Option Str := none
  schemaName : Option Str := none
  tableName : Option Str := none
  tableType : Option Str := none
  remarks : Option Str := none
  deriving DecidableEq, Repr

/-- `meta::ColumnMeta`, the fields `GetColumn` reads. -/
structure ColumnMeta where
  catalogName : Option Str := none
  schemaName : Option Str := none
  tableName : Option Str := none
  columnName : Option Str := none
  remarks : Option Str := none
  columnDef : Option Str := none
  dataType : Option Int := none
  nullability : Option Int := none
  ordinalPosition : Option Int := none
  deriving DecidableEq, Repr

/-- `meta::PrimaryKeyMeta`. -/
structure PrimaryKeyMeta where
  catalog : Option Str := none
  schema : Option Str := none
  table : Option Str := none
  column : Option Str := none
  keySeq : Option Int := none
  keyName : Option Str := none
  deriving DecidableEq, Repr

/-- `meta::ForeignKeyMeta`. -/
structure ForeignKeyMeta where
  pkCatalogName : Option Str := none
  pkSchemaName : Option Str := none
  pkTableName : Option Str := none
  pkColumnName : Option Str := none
  fkCatalogName : Option Str := none
  fkSchemaName : Option Str := none
  fkTableName : Option Str := none
  fkColumnName : Option Str := none
  keySeq : Option Int := none
  updateRule : Option Int := none
  deleteRule : Option Int := none
  fkName : Option Str := none
  pkName : Option Str := none
  deferrability : Option Int := none
  deriving DecidableEq, Repr

/-- `PutInt16` of an optional value. -/
def putInt16 (v : Option Int) : PutCall := .num (v.map (.int 2))

/-- `PutInt32` of an optional value. -/
def putInt32 (v : Option Int) : PutCall := .num (v.map (.int 4))

/-- The `Put` of a column of the row. -/
def TableMeta.call (row : TableMeta) : UInt16 → Option PutCall
  | 1 => some (.string row.catalogName)
  | 2 => some (.string row.schemaName)
  | 3 => some (.string row.tableName)
  | 4 => some (.string row.tableType)
  | 5 => some (.string row.remarks)
  | _ => none

/-- Null for no value and for a negative one. -/
def ColumnMeta.nonnegative (v : Option Int) : PutCall :=
  if v.all (· < 0) then .null else putInt16 v

def ColumnMeta.call (P : Platform) (row : ColumnMeta) : UInt16 → Option PutCall
  | 1 => some (.string row.catalogName)
  | 2 => some (.string row.schemaName)
  | 3 => some (.string row.tableName)
  | 4 => some (.string row.columnName)
  | 5 => some (putInt16 (binaryToSqlType row.dataType))
  | 6 => some (.string (binaryTypeToSqlTypeName row.dataType))
  | 7 => some (putInt32 (binaryTypeColumnSize row.dataType))
  | 8 => some (putInt32 (binaryTypeTransferLength row.dataType))
  | 9 => some (nonnegative (binaryTypeDecimalDigits row.dataType))
  | 10 => some (nonnegative (binaryTypeNumPrecRadix row.dataType))
  | 11 => some (putInt32 row.nullability)
  | 12 => some (.string row.remarks)
  | 13 => some (.string row.columnDef)
  | 14 => some (putInt16 (binaryToSqlType row.dataType))
  | 15 => some .null
  | 16 => some (putInt32 (binaryTypeCharOctetLength P.wcharBytes row.dataType))
  | 17 => some (putInt32 row.ordinalPosition)
  | 18 => some (.string (nullabilityToIsNullable row.nullability))
  | _ => none

def PrimaryKeyMeta.call (row : PrimaryKeyMeta) : UInt16 → Option PutCall
  | 1 => some (.string row.catalog)
  | 2 => some (.string row.schema)
  | 3 => some (.string row.table)
  | 4 => some (.string row.column)
  | 5 => some (putInt16 row.keySeq)
  | 6 => some (.string row.keyName)
  | _ => none

def ForeignKeyMeta.call (row : ForeignKeyMeta) : UInt16 → Option PutCall
  | 1 => some (.string row.pkCatalogName)
  | 2 => some (.string row.pkSchemaName)
  | 3 => some (.string row.pkTableName)
  | 4 => some (.string row.pkColumnName)
  | 5 => some (.string row.fkCatalogName)
  | 6 => some (.string row.fkSchemaName)
  | 7 => some (.string row.fkTableName)
  | 8 => some (.string row.fkColumnName)
  | 9 => some (putInt16 row.keySeq)
  | 10 => some (putInt16 row.updateRule)
  | 11 => some (putInt16 row.deleteRule)
  | 12 => some (.string row.fkName)
  | 13 => some (.string row.pkName)
  | 14 => some (putInt16 row.deferrability)
  | _ => none

/-! ## The classes -/

inductive MetadataClass where
  | table | column | primaryKeys | foreignKeys
  deriving DecidableEq, Repr

namespace MetadataClass

/-- The rows of the vector. -/
def Row : MetadataClass → Type
  | .table => TableMeta
  | .column => ColumnMeta
  | .primaryKeys => PrimaryKeyMeta
  | .foreignKeys => ForeignKeyMeta

/-- The `Put` that `GetColumn` makes of a row, none in its default branch. -/
def call (P : Platform) : (c : MetadataClass) → c.Row → UInt16 → Option PutCall
  | .table, row => TableMeta.call row
  | .column, row => ColumnMeta.call P row
  | .primaryKeys, row => PrimaryKeyMeta.call row
  | .foreignKeys, row => ForeignKeyMeta.call row

/-- The default branch of `GetColumn`. -/
def noColumn : MetadataClass → Action SqlResult
  | .column => diagnosed .s07009InvalidDescriptorIndex "Invalid index." 0 0 .error
  | .table | .primaryKeys | .foreignKeys => pure .success

/-- What `GetColumn` does at the end of the vector. -/
def endOfData : MetadataClass → Action SqlResult
  | .table | .column =>
    diagnosed .s24000InvalidCursorState "Cursor has reached end of the result set." 0 0 .error
  | .primaryKeys | .foreignKeys => pure .noData

/-- `Close` resets `fetched`. -/
def closeResetsFetched : MetadataClass → Bool
  | .table | .column => false
  | .primaryKeys | .foreignKeys => true

end MetadataClass

/-- What comes of `MakeRequestGet…Meta`: an error of the connection or of the
driver, with its text, or the rows that were read. -/
inductive MetadataOutcome (c : MetadataClass) where
  | failed (text : Str)
  | rows (metaVector : List c.Row)

/-- An iterator into the vector as it was filled for the `filling`-th time. -/
structure MetadataIterator where
  filling : Nat
  pos : Nat
  deriving DecidableEq, Repr

/-- `filling` counts the changes of the vector that end the life of its
iterators. -/
structure MetadataQuery (c : MetadataClass) where
  executed : Bool := false
  fetched : Bool := false
  metaVector : List c.Row := []
  filling : Nat := 0
  cursor : Option MetadataIterator := none

namespace MetadataQuery

variable (P : Platform) {c : MetadataClass}

/-! ## The iterator -/

/-- The position of the iterator, if it is one into the vector. -/
def position (q : MetadataQuery c) : Except Fault Nat :=
  match q.cursor with
  | some it => if it.filling = q.filling ∧ it.pos ≤ q.metaVector.length then .ok it.pos else .error .outOfRange
  | none => .error .outOfRange

/-- `cursor == meta.end()`. -/
def atEnd (q : MetadataQuery c) : Except Fault Bool := do
  let pos ← q.position
  pure (pos == q.metaVector.length)

/-- `++cursor`. -/
def advance (q : MetadataQuery c) : Except Fault (MetadataQuery c) := do
  let pos ← q.position
  if pos < q.metaVector.length then pure { q with cursor := some ⟨q.filling, pos + 1⟩ } else throw .outOfRange

/-- `*cursor`. -/
def current (q : MetadataQuery c) : Except Fault c.Row := do
  let pos ← q.position
  match q.metaVector[pos]? with
  | some row => pure row
  | none => throw .outOfRange

/-! ## The operations -/

def close (q : MetadataQuery c) : MetadataQuery c × SqlResult :=
  ({ q with
      metaVector := []
      filling := q.filling + 1
      executed := false
      fetched := if c.closeResetsFetched then false else q.fetched }, .success)

/-- `MakeRequestGet…Meta`: the rows take the place of those before. -/
def makeRequest (q : MetadataQuery c) : MetadataOutcome c → MetadataQuery c × Action SqlResult
  | .failed text => (q, do
      emit (.record ⟨.sHY000GeneralError, text, 0, 0⟩)
      pure .error)
  | .rows metaVector => ({ q with metaVector := metaVector, filling := q.filling + 1 }, pure .success)

def execute (q : MetadataQuery c) (o : MetadataOutcome c) : MetadataQuery c × Action SqlResult :=
  let q := if q.executed then q.close.1 else q
  let r := q.makeRequest o
  match r.2.value with
  | .ok .success =>
    ({ r.1 with executed := true, fetched := false, cursor := some ⟨r.1.filling, 0⟩ }, r.2)
  | _ => r

def getColumn (q : MetadataQuery c) (columnIdx : UInt16) (b : ApplicationDataBuffer) : Action SqlResult :=
  if !q.executed then diagnosed .sHY010SequenceError "Query was not executed." 0 0 .error
  else
    match q.atEnd with
    | .error e => raise e
    | .ok true => c.endOfData
    | .ok false =>
      match q.current with
      | .error e => raise e
      | .ok row =>
        match c.call P row columnIdx with
        | none => c.noColumn
        | some call => do
          let _ ← b.writesOf (b.put P call)
          pure .success

/-- The keys a map of bindings can have, in order. -/
def bindingKeys : List Nat := List.range 65536

/-- The loop of `FetchNextRow` over these keys of the bindings; the results do
not count. -/
def getColumns (q : MetadataQuery c) (columnBindings : ColumnBindingMap) : List Nat → Action SqlResult
  | [] => pure .success
  | i :: is =>
    match columnBindings (UInt16.ofNat i) with
    | none => getColumns q columnBindings is
    | some b => do
      let _ ← q.getColumn P (UInt16.ofNat i) b
      getColumns q columnBindings is

/-- The iterator moves on from the second fetch on, but not past the end. -/
def moveCursor (q : MetadataQuery c) : Except Fault (MetadataQuery c) :=
  if !q.fetched then .ok { q with fetched := true }
  else do
    let atEnd ← q.atEnd
    if atEnd then pure q else q.advance

def fetchNextRow (q : MetadataQuery c) (columnBindings : ColumnBindingMap) :
    MetadataQuery c × Action SqlResult :=
  if !q.executed then (q, diagnosed .sHY010SequenceError "Query was not executed." 0 0 .error)
  else
    match q.moveCursor with
    | .error e => (q, raise e)
    | .ok q =>
      match q.atEnd with
      | .error e => (q, raise e)
      | .ok true => (q, pure .noData)
      | .ok false => (q, q.getColumns P columnBindings bindingKeys)

/-! ## Runs -/

/-- A call of one of the operations. -/
inductive Call (c : MetadataClass) where
  | execute (o : MetadataOutcome c)
  | fetchNextRow (columnBindings : ColumnBindingMap)
  | getColumn (columnIdx : UInt16) (b : ApplicationDataBuffer)
  | close

/-- The query a call leaves. -/
def step (q : MetadataQuery c) : Call c → MetadataQuery c
  | .execute o => (q.execute o).1
  | .fetchNextRow columnBindings => (q.fetchNextRow P columnBindings).1
  | .getColumn _ _ => q
  | .close => q.close.1

def run (q : MetadataQuery c) (calls : List (Call c)) : MetadataQuery c := calls.foldl (step P) q

end MetadataQuery

/-- The four classes, as they are made. -/
abbrev TableMetadataQuery := MetadataQuery .table
abbrev ColumnMetadataQuery := MetadataQuery .column
abbrev PrimaryKeysQuery := MetadataQuery .primaryKeys
abbrev ForeignKeysQuery := MetadataQuery .foreignKeys

end DocumentDbOdbc
