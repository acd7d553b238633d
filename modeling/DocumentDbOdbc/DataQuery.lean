/-
`query::DataQuery`: a query over documents, from `Execute` to `Close`.

An operation returns the query it leaves and its effect: the writes to the
application's memory and the status records, in order, then the result. The
query that is left is the same whether the operation returned or threw.
-/
import DocumentDbOdbc.Cursor
import DocumentDbOdbc.Diagnostic

namespace DocumentDbOdbc

open Effect

/-- What an operation does beside returning. -/
inductive Event where
  | write (w : Memory.Write)
  | record (r : StatusRecord)
  deriving DecidableEq, Repr

abbrev Action := Eff Event Fault

/-- `diag.AddStatusRecord(…)`, then a result. -/
def diagnosed (state : SqlState) (message : String) (rowNum columnNum : Int) (r : SqlResult) :
    Action SqlResult := do
  emit (.record ⟨state, ascii message, rowNum, columnNum⟩)
  pure r

/-- `app::ColumnBindingMap`. -/
abbrev ColumnBindingMap := UInt16 → Option ApplicationDataBuffer

/-- The read of a column, its stores resolved to addresses. -/
def ApplicationDataBuffer.writesOf (b : ApplicationDataBuffer) (x : Put) : Action ConversionResult :=
  x.mapLog fun s => (b.resolve s).map .write

/-- What comes of the request that executes a query: an error of the query
context, which may be an exception of the JDBC driver; an exception of the
MongoDB driver, caught; any other exception; the documents of a cursor. -/
inductive RequestOutcome where
  | contextError (sqlException : Bool) (text : Str)
  | mongoException (text : Str)
  | exception
  | opened (documents : List Document) (result : ResultColumns)

structure DataQuery where
  cursor : Option DocumentDbCursor := none

namespace DataQuery

variable (P : Platform)

/-! ## Execute and Close -/

def makeRequestFetch (q : DataQuery) : RequestOutcome → DataQuery × Action SqlResult
  | .contextError sqlException text =>
    (q, do
      emit (.record ⟨if sqlException then .sHYC00OptionalFeatureNotImplemented else .sHY000GeneralError,
        text, 0, 0⟩)
      emit (.record ⟨.sHY000GeneralError, text, 0, 0⟩)
      pure .error)
  | .mongoException text =>
    (q, do
      emit (.record ⟨.sHY000GeneralError, text, 0, 0⟩)
      pure .error)
  | .exception => (q, raise .exception)
  | .opened documents result => ({ q with cursor := some { rest := documents, result := result } }, pure .success)

def makeRequestExecute (q : DataQuery) (o : RequestOutcome) : DataQuery × Action SqlResult :=
  { q with cursor := none }.makeRequestFetch o

def internalClose (q : DataQuery) : DataQuery × SqlResult :=
  if q.cursor.isNone then (q, .success) else ({ q with cursor := none }, .success)

def close (q : DataQuery) : DataQuery × SqlResult := q.internalClose

def execute (q : DataQuery) (o : RequestOutcome) : DataQuery × Action SqlResult :=
  (if q.cursor.isSome then q.internalClose.1 else q).makeRequestExecute o

def dataAvailable (q : DataQuery) : Bool := q.cursor.any (·.hasData)

/-! ## Rows -/

def processConversionResult (convRes : ConversionResult) (rowIdx columnIdx : Int) : Action SqlResult :=
  match convRes with
  | .success => pure .success
  | .noData => pure .noData
  | .varlenDataTruncated =>
    diagnosed .s01004DataTruncated "Buffer is too small for the column data. Truncated from the right."
      rowIdx columnIdx .successWithInfo
  | .fractionalTruncated =>
    diagnosed .s01S07FractionalTruncation "Buffer is too small for the column data. Fraction truncated."
      rowIdx columnIdx .successWithInfo
  | .indicatorNeeded =>
    diagnosed .s22002IndicatorNeeded "Indicator is needed but not suplied for the column buffer."
      rowIdx columnIdx .successWithInfo
  | .unsupportedConversion =>
    diagnosed .sHYC00OptionalFeatureNotImplemented "Data conversion is not supported."
      rowIdx columnIdx .successWithInfo
  | .failure =>
    diagnosed .s01S01ErrorInRow "Can not retrieve row column." rowIdx columnIdx .error

/-- The read of one column and what is made of its result. -/
def readColumn {result : ResultColumns} (row : DocumentDbRow result) (columnIdx : Nat)
    (b : ApplicationDataBuffer) : DocumentDbRow result × Action SqlResult :=
  let read := row.readColumnToBuffer P columnIdx b
  (read.1, do
    let convRes ← b.writesOf read.2
    processConversionResult convRes 0 columnIdx)

/-- The row is left at this column: by its error or by an exception. -/
def endsRow : Except Fault SqlResult → Bool
  | .ok .error | .error _ => true
  | _ => false

/-- The loop of `FetchNextRow` over these columns; the bindings have keys of
16 bits. An error of a column ends it, a warning does not. -/
def fetchColumns {result : ResultColumns} (columnBindings : ColumnBindingMap) :
    List Nat → DocumentDbRow result → DocumentDbRow result × Action SqlResult
  | [], row => (row, pure .success)
  | i :: is, row =>
    match columnBindings (UInt16.ofNat i) with
    | none => fetchColumns columnBindings is row
    | some b =>
      let column := readColumn P row i b
      if endsRow column.2.value then column
      else
        let rest := fetchColumns columnBindings is column.1
        (rest.1, do
          let _ ← column.2
          rest.2)

def fetchNextRow (q : DataQuery) (columnBindings : ColumnBindingMap) : DataQuery × Action SqlResult :=
  match q.cursor with
  | none => (q, diagnosed .sHY010SequenceError "Query was not executed." 0 0 .error)
  | some c =>
    if !c.hasData then (q, pure .noData)
    else
      match c.increment with
      | (false, c) => ({ q with cursor := some c }, pure .noData)
      | (true, c) =>
        match c.getRow with
        | none => ({ q with cursor := some c }, diagnosed .sHY000GeneralError "Unknown error." 0 0 .error)
        | some row =>
          let fetched := fetchColumns P columnBindings (List.range' 1 row.getSize) row
          ({ q with cursor := some { c with currentRow := some fetched.1 } }, fetched.2)

def getColumn (q : DataQuery) (columnIdx : UInt16) (b : ApplicationDataBuffer) :
    DataQuery × Action SqlResult :=
  match q.cursor with
  | none => (q, diagnosed .sHY010SequenceError "Query was not executed." 0 0 .error)
  | some c =>
    match c.getRow with
    | none =>
      (q, diagnosed .s24000InvalidCursorState "Cursor has reached end of the result set." 0 0 .error)
    | some row =>
      let column := readColumn P row columnIdx.toNat b
      ({ q with cursor := some { c with currentRow := some column.1 } }, column.2)

/-! ## Runs -/

/-- A call of one of the operations. -/
inductive Call where
  | execute (o : RequestOutcome)
  | fetchNextRow (columnBindings : ColumnBindingMap)
  | getColumn (columnIdx : UInt16) (b : ApplicationDataBuffer)
  | dataAvailable
  | close

/-- The query a call leaves. -/
def step (q : DataQuery) : Call → DataQuery
  | .execute o => (q.execute o).1
  | .fetchNextRow columnBindings => (q.fetchNextRow P columnBindings).1
  | .getColumn columnIdx b => (q.getColumn P columnIdx b).1
  | .dataAvailable => q
  | .close => q.close.1

def run (q : DataQuery) (calls : List Call) : DataQuery := calls.foldl (step P) q

end DataQuery

end DocumentDbOdbc
