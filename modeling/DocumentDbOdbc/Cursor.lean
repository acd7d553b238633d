/-
`DocumentDbRow` and `DocumentDbCursor`: the documents of a result, one at a
time.

A row keeps the columns it has made so far; that they are the columns of its
current document is a field of it. `Increment` moves the iterator only from
the second row on, since the iterator starts on the first document.
-/
import DocumentDbOdbc.Column

namespace DocumentDbOdbc

open Effect

/-- What the query context says about the columns of a result. -/
structure ResultColumns where
  columnMetadata : List JdbcType
  paths : List Str
  deriving DecidableEq, Repr

/-- The columns of a document, as far as there is a path for each. -/
def ResultColumns.columns (r : ResultColumns) (document : Document) : List DocumentDbColumn :=
  (r.columnMetadata.zip r.paths).map fun c => ⟨c.1, document, c.2⟩

/-- The row refers to the metadata and the paths of its cursor. -/
structure DocumentDbRow (result : ResultColumns) where
  columns : List DocumentDbColumn
  document : Document
  columns_eq : columns = (result.columns document).take columns.length

namespace DocumentDbRow

variable {result : ResultColumns} (P : Platform)

def new (result : ResultColumns) (document : Document) : DocumentDbRow result := ⟨[], document, rfl⟩

def getSize (_row : DocumentDbRow result) : Nat := result.columnMetadata.length

def update (row : DocumentDbRow result) (document : Document) : DocumentDbRow result where
  columns := row.columns.map (·.update document)
  document := document
  columns_eq := by
    have hcols : (result.columns row.document).map (·.update document) = result.columns document := by
      simp [ResultColumns.columns, DocumentDbColumn.update]
    conv => lhs; rw [row.columns_eq]
    rw [List.map_take, hcols, List.length_map]

/-- One round of the loop: the column behind the last one is made. -/
def discoverNext (row : DocumentDbRow result) : Except Fault (DocumentDbRow result) :=
  if h : row.columns.length < (result.columns row.document).length then
    .ok {
      columns := row.columns ++ [(result.columns row.document)[row.columns.length]]
      document := row.document
      columns_eq := by
        rw [List.length_append, List.length_singleton, List.take_succ_eq_append_getElem h, ← row.columns_eq] }
  else .error .outOfRange

def discover (row : DocumentDbRow result) : Nat → Except Fault (DocumentDbRow result)
  | 0 => .ok row
  | n + 1 => do
    let row ← row.discoverNext
    row.discover n

def ensureColumnDiscovered (row : DocumentDbRow result) (columnIdx : Nat) :
    Except Fault (DocumentDbRow result) :=
  if row.columns.length = row.getSize then .ok row
  else row.discover (columnIdx - row.columns.length)

/-- The row with the columns made on the way, and the read. -/
def readColumnToBuffer (row : DocumentDbRow result) (columnIdx : Nat) (b : ApplicationDataBuffer) :
    DocumentDbRow result × Put :=
  if row.getSize < columnIdx ∨ columnIdx < 1 then (row, pure .failure)
  else
    match row.ensureColumnDiscovered columnIdx with
    | .error e => (row, raise e)
    | .ok row =>
      match row.columns[columnIdx - 1]? with
      | some column => (row, column.readToBuffer P b)
      | none => (row, raise .outOfRange)

/-- A call on a row. -/
inductive Call where
  | readColumnToBuffer (columnIdx : Nat) (b : ApplicationDataBuffer)
  | update (document : Document)

/-- The row a call leaves. -/
def step (row : DocumentDbRow result) : Call → DocumentDbRow result
  | .readColumnToBuffer columnIdx b => (row.readColumnToBuffer P columnIdx b).1
  | .update document => row.update document

def run (row : DocumentDbRow result) (calls : List Call) : DocumentDbRow result := calls.foldl (step P) row

end DocumentDbRow

/-- `rest` are the documents from the iterator's position on. -/
structure DocumentDbCursor where
  rest : List Document
  result : ResultColumns
  isFirstRow : Bool := true
  currentRow : Option (DocumentDbRow result) := none

namespace DocumentDbCursor

def hasData (c : DocumentDbCursor) : Bool := !c.rest.isEmpty

def getRow (c : DocumentDbCursor) : Option (DocumentDbRow c.result) := c.currentRow

/-- The row of the document the iterator is on, and whether there is one. -/
def setRow (c : DocumentDbCursor) : Bool × DocumentDbCursor :=
  match c.rest with
  | d :: _ => (true, { c with currentRow := some (c.currentRow.elim (.new c.result d) (·.update d)) })
  | [] => (false, { c with currentRow := none })

def increment (c : DocumentDbCursor) : Bool × DocumentDbCursor :=
  if c.hasData then
    if c.isFirstRow then { c with isFirstRow := false }.setRow else { c with rest := c.rest.tail }.setRow
  else c.setRow

end DocumentDbCursor

end DocumentDbOdbc
