/-
`query::BatchQuery` and the part of `app::ParameterSet` it works on.

`Execute` sends the rows of the parameter set page by page. What comes back of
a request is not decided by the driver (`Connection::SyncMessage` answers
nothing by itself): it is a `Reply`. The loop counts in `int32_t`, where a
result out of range is undefined.
-/
import DocumentDbOdbc.Diagnostic

namespace DocumentDbOdbc

/-- `ResponseStatusToSqlState`, by the values of `ResponseStatus`. -/
def responseStatusToSqlState (status : Int32) : SqlState :=
  match status.toInt with
  | 1001 | 2001 | 2003 => .s42000SyntaxErrorOrAccessViolation
  | 1002 => .sHYC00OptionalFeatureNotImplemented
  | 2002 => .sHY004InvalidSqlDataType
  | 4001 | 4003 | 4004 => .s23000IntegrityConstraintViolation
  | 3001 => .s42S02TableOrViewNotFound
  | 3005 => .s42S11IndexAlreadyExists
  | 3006 => .s42S12IndexNotFound
  | 3007 => .s42S01TableOrViewAlreadyExists
  | 3008 => .s42S22ColumnNotFound
  | 3009 => .s42S21ColumnAlreadyExists
  | 5004 => .s25000InvalidTransactionState
  | 5005 => .s40001SerializationFailure
  | _ => .sHY000GeneralError

/-! ## The parameter set -/

/-- `SQL_PARAM_SUCCESS` and `SQL_PARAM_ERROR`. -/
inductive ParamStatus where
  | success | error
  deriving DecidableEq, Repr

/-- `app::ParameterSet`: the number of rows, and the two buffers of the
application, if it has bound them. -/
structure ParameterSet where
  paramSetSize : Nat := 1
  paramsStatus : Option (List ParamStatus) := none
  processedParamRows : Option Nat := none
  deriving DecidableEq, Repr

namespace ParameterSet

def getParamSetSize (p : ParameterSet) : Int32 := .ofNat p.paramSetSize

def setParamStatus (p : ParameterSet) (idx : Int) (status : ParamStatus) : ParameterSet :=
  if idx < 0 ∨ (Int64.ofNat p.paramSetSize).toInt ≤ idx then p
  else { p with paramsStatus := p.paramsStatus.map (·.set idx.toNat status) }

def setParamsProcessed (p : ParameterSet) (processed : Nat) : ParameterSet :=
  { p with processedParamRows := p.processedParamRows.map fun _ => processed }

end ParameterSet

/-! ## Requests -/

/-- What `SyncMessage` comes to: nothing in time, an exception, or a response
with its status, its counts and its error. -/
inductive Reply where
  | timeout
  | odbcError (err : OdbcError)
  | documentDbError (text : Str)
  | response (status : Int32) (error : Str) (affectedRows : List Int64) (errorMessage : Str) (errorCode : Int32)
  deriving DecidableEq, Repr

/-- `[begin, end)` and the flag of a request. -/
structure Page where
  begin : Nat
  stop : Nat
  last : Bool
  deriving DecidableEq, Repr

/-- `query::BatchQuery`. -/
structure BatchQuery where
  rowsAffected : List Int64 := []
  rowsAffectedIdx : Nat := 0
  executed : Bool := false
  deriving DecidableEq, Repr

/-- `static_cast<SqlUlen>` of a signed number. -/
def sqlUlen (v : Int) : Nat := (v % 18446744073709551616).toNat

/-- The result of a computation in `int32_t`. -/
def int32Result (v : Int) : Option Int := if -2147483648 ≤ v ∧ v ≤ 2147483647 then some v else none

namespace BatchQuery

/-- `BatchQuery::Close`. -/
def close (_q : BatchQuery) : BatchQuery := {}

/-- `SetParamStatus` of every count, from the row behind the last one on. -/
def setStatuses (params : ParameterSet) : Nat → List Int64 → ParameterSet
  | _, [] => params
  | idx, n :: rows => setStatuses (params.setParamStatus idx (if n < 0 then .error else .success)) (idx + 1) rows

/-- `BatchQuery::MakeRequestExecuteBatch`, behind the request. -/
def makeRequestExecuteBatch (q : BatchQuery) (params : ParameterSet) (reply : Reply) :
    BatchQuery × ParameterSet × SqlResult × List StatusRecord :=
  match reply with
  | .timeout => (q, params, .error, [⟨.sHYT00TimeoutExpired, ascii "Query timeout expired", 0, 0⟩])
  | .odbcError err => (q, params, .error, [⟨err.status, err.errMessage, 0, 0⟩])
  | .documentDbError text => (q, params, .error, [⟨.sHY000GeneralError, text, 0, 0⟩])
  | .response status error rows errorMessage errorCode =>
    if status ≠ 0 then (q, params, .error, [⟨responseStatusToSqlState status, error, 0, 0⟩])
    else
      let params := setStatuses params q.rowsAffected.length rows
      let q := { q with rowsAffected := q.rowsAffected ++ rows }
      if errorMessage ≠ [] then
        (q, params, .successWithInfo, [⟨responseStatusToSqlState errorCode, errorMessage,
          (Int32.ofNat q.rowsAffected.length).toInt, 0⟩])
      else (q, params, .success, [])

/-! ## Execute -/

/-- The variables of the loop of `Execute`, and the requests made so far. -/
structure Paging where
  query : BatchQuery
  params : ParameterSet
  processed : Int := 0
  pages : List Page := []
  diag : List StatusRecord := []
  res : SqlResult := .success
  deriving DecidableEq, Repr

variable (maxPageSize rowNum : Int32) (reply : Nat → Reply)

/-- The body of the loop. -/
def page (s : Paging) : Option Paging := do
  let rest ← int32Result (rowNum.toInt - s.processed)
  let currentPageSize := min maxPageSize.toInt rest
  let stop ← int32Result (s.processed + currentPageSize)
  let (query, params, res, diag) := s.query.makeRequestExecuteBatch s.params (reply s.pages.length)
  return {
    query, params, res
    processed := stop
    pages := s.pages ++ [⟨sqlUlen s.processed, sqlUlen stop, currentPageSize == rest⟩]
    diag := s.diag ++ diag }

/-- `AI_SUCCESS` or `AI_SUCCESS_WITH_INFO`. -/
def succeeded (res : SqlResult) : Bool := res == .success || res == .successWithInfo

/-- The loop; nothing comes out if the numbers leave `int32_t` or the rounds
do not end. -/
def executeLoop : Nat → Paging → Option Paging
  | 0, _ => none
  | fuel + 1, s => do
    let s ← page maxPageSize rowNum reply s
    if succeeded s.res && decide (s.processed < rowNum.toInt) then executeLoop fuel s else return s

/-- `BatchQuery::Execute`, with the fetch size of the configuration. -/
def execute (q : BatchQuery) (params : ParameterSet) (fuel : Nat) : Option Paging := do
  let q := if q.executed then q.close else q
  let s ← executeLoop maxPageSize params.getParamSetSize reply fuel { query := { q with rowsAffected := [] }, params }
  return { s with params := s.params.setParamsProcessed s.query.rowsAffected.length }

/-! ## Results -/

def notExecuted : StatusRecord := ⟨.sHY010SequenceError, ascii "Query was not executed.", 0, 0⟩

/-- `BatchQuery::FetchNextRow`. -/
def fetchNextRow (q : BatchQuery) : SqlResult × List StatusRecord :=
  if !q.executed then (.error, [notExecuted]) else (.noData, [])

/-- `BatchQuery::AffectedRows`. -/
def affectedRows (q : BatchQuery) : Int64 :=
  let affected := if q.rowsAffectedIdx < q.rowsAffected.length then q.rowsAffected.getD q.rowsAffectedIdx 0 else 0
  if affected < 0 then 0 else affected

/-- `BatchQuery::NextResultSet`. -/
def nextResultSet (q : BatchQuery) : BatchQuery × SqlResult :=
  if q.rowsAffected.length ≤ q.rowsAffectedIdx + 1 then (q.close, .noData)
  else ({ q with rowsAffectedIdx := q.rowsAffectedIdx + 1 }, .success)

end BatchQuery

example :
    (BatchQuery.execute 2 (fun _ => .response 0 [] [1, 1] [] 0) {} { paramSetSize := 3 } 2).map (·.pages) =
      some [⟨0, 2, false⟩, ⟨2, 3, true⟩] := by decide

end DocumentDbOdbc
