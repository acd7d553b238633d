/-
Results and diagnostic records the driver reports to the application.
-/
import DocumentDbOdbc.CommonUtils

namespace DocumentDbOdbc

/-- `SqlResult::Type`. -/
inductive SqlResult where
  | success | successWithInfo | error | noData | needData
  deriving DecidableEq, Repr

/-- The values of `SqlState::Type` that the modelled functions report. -/
inductive SqlState where
  | s01004DataTruncated
  | s01S00InvalidConnectionStringAttribute
  | s01S01ErrorInRow
  | s01S02OptionValueChanged
  | s01S07FractionalTruncation
  | s07009InvalidDescriptorIndex
  | s08001CannotConnect
  | s08002AlreadyConnected
  | s08003NotConnected
  | s22002IndicatorNeeded
  | s23000IntegrityConstraintViolation
  | s24000InvalidCursorState
  | s25000InvalidTransactionState
  | s40001SerializationFailure
  | s42000SyntaxErrorOrAccessViolation
  | s42S01TableOrViewAlreadyExists
  | s42S02TableOrViewNotFound
  | s42S11IndexAlreadyExists
  | s42S12IndexNotFound
  | s42S21ColumnAlreadyExists
  | s42S22ColumnNotFound
  | sHY000GeneralError
  | sHY003InvalidApplicationBufferType
  | sHY004InvalidSqlDataType
  | sHY010SequenceError
  | sHY024InvalidAttributeValue
  | sHY090InvalidStringOrBufferLength
  | sHYC00OptionalFeatureNotImplemented
  | sHYT00TimeoutExpired
  deriving DecidableEq, Repr

/-- A status record, as `AddStatusRecord` makes it; row and column are zero
where the call does not name them. -/
structure StatusRecord where
  sqlState : SqlState
  message : Str
  rowNum : Int := 0
  columnNum : Int := 0
  deriving DecidableEq, Repr

/-- `OdbcError`. -/
structure OdbcError where
  status : SqlState
  errMessage : Str
  deriving DecidableEq, Repr

end DocumentDbOdbc
