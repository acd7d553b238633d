/-
`SqlSetStreamingCommand`, `SqlParser` and the part of `Statement` that hands
internal commands to them.

`*lexer.Shift()` throws the lexer's error, here the error of an `Except`. The
parser's walk up to the call of `SqlSetStreamingCommand::Parse` is a function
of its own (`findCommand`), so that it can be said whether `Parse` is reached.
-/
import DocumentDbOdbc.SqlLexer

namespace DocumentDbOdbc

/-- `*Shift()`. -/
def SqlLexer.shiftOrThrow (l : SqlLexer) : Except OdbcError (SqlLexer × Bool) := l.shift.2.map (l.shift.1, ·)

def syntaxError (message : Str) : OdbcError := ⟨.s42000SyntaxErrorOrAccessViolation, message⟩

/-- `sql_utils::TokenToBoolean`. -/
def tokenToBoolean (token : SqlToken) : Except OdbcError Bool :=
  if token.toLower = ascii "1" || token.toLower = ascii "on" then .ok true
  else if token.toLower = ascii "0" || token.toLower = ascii "off" then .ok false
  else .error (syntaxError (ascii "Unexpected token: '" ++ token.text ++ ascii "', ON, OFF, 1 or 0 expected."))

/-- `SqlSetStreamingCommand`. -/
structure SqlSetStreamingCommand where
  enabled : Bool := false
  allowOverwrite : Bool := false
  batchSize : Int32 := 2048
  parallelOpsPerNode : Int32 := 0
  bufferSizePerNode : Int32 := 0
  flushFrequency : Int64 := 0
  ordered : Bool := false
  deriving DecidableEq, Repr

namespace SqlSetStreamingCommand

/-- `ThrowUnexpectedTokenError`. -/
def unexpectedTokenError (token : SqlToken) (expected : String) : OdbcError :=
  syntaxError (ascii "Unexpected token: '" ++ token.text ++ ascii "', " ++ ascii expected ++ ascii " expected.")

/-- `ThrowUnexpectedEndOfStatement`. -/
def unexpectedEndOfStatement (expected : String) : OdbcError :=
  syntaxError (ascii "Unexpected end of statement: " ++ ascii expected ++ ascii " expected.")

/-- `CheckEnabled`. -/
def checkEnabled (cmd : SqlSetStreamingCommand) (token : SqlToken) : Except OdbcError Unit :=
  if cmd.enabled then .ok () else .error (unexpectedTokenError token "no parameters with STREAMING OFF command")

/-- The sign of `ExpectInt` and the lexer behind it. -/
def expectSign (l : SqlLexer) : Except OdbcError (SqlLexer × Int) :=
  if l.currentToken.type = .minus then do
    let (l, hasNext) ← l.shiftOrThrow
    if !hasNext then throw (unexpectedEndOfStatement "integer number")
    return (l, -1)
  else return (l, 1)

/-- `ExpectInt`; `indeterminate` is the value `LexicalCast<int64_t>` leaves for
an empty word. -/
def expectInt (indeterminate : Int) (l : SqlLexer) : Except OdbcError (SqlLexer × Int32) := do
  let (l, hasNext) ← l.shiftOrThrow
  if !hasNext then throw (unexpectedEndOfStatement "integer number")
  let (l, sign) ← expectSign l
  let val := sign * streamInt (-9223372036854775808) 9223372036854775807 indeterminate l.currentToken.text
  if l.currentToken.type = .word && allDigits l.currentToken.text && decide (-2147483648 ≤ val) &&
      decide (val ≤ 2147483647) then
    return (l, .ofInt val)
  throw (unexpectedTokenError l.currentToken "integer number")

/-- `ExpectPositiveInteger`. -/
def expectPositiveInteger (indeterminate : Int) (l : SqlLexer) (description : String) :
    Except OdbcError (SqlLexer × Int32) := do
  let (l, val) ← expectInt indeterminate l
  if val ≤ 0 then
    throw (syntaxError (ascii "Invalid " ++ ascii description ++
      ascii " - positive integer number is expected."))
  return (l, val)

/-- `ExpectBool`; behind the end the current token is empty. -/
def expectBool (l : SqlLexer) : Except OdbcError (SqlLexer × Bool) := do
  let (l, hasNext) ← l.shiftOrThrow
  if !hasNext then throw (unexpectedTokenError l.currentToken "ON or OFF")
  return (l, ← tokenToBoolean l.currentToken)

/-- The body of the loop of `Parse`, for the option the current token names. -/
def parseOption (indeterminate : Int) (cmd : SqlSetStreamingCommand) (l : SqlLexer) :
    Except OdbcError (SqlSetStreamingCommand × SqlLexer) := do
  let token := l.currentToken
  if token.toLower = ascii "batch_size" then
    cmd.checkEnabled token
    let (l, n) ← expectPositiveInteger indeterminate l "batch size"
    return ({ cmd with batchSize := n }, l)
  if token.toLower = ascii "per_node_buffer_size" then
    cmd.checkEnabled token
    let (l, n) ← expectPositiveInteger indeterminate l "per node buffer size"
    return ({ cmd with bufferSizePerNode := n }, l)
  if token.toLower = ascii "per_node_parallel_operations" then
    cmd.checkEnabled token
    let (l, n) ← expectPositiveInteger indeterminate l "per node parallel operations number"
    return ({ cmd with parallelOpsPerNode := n }, l)
  if token.toLower = ascii "allow_overwrite" then
    cmd.checkEnabled token
    let (l, b) ← expectBool l
    return ({ cmd with allowOverwrite := b }, l)
  if token.toLower = ascii "flush_frequency" then
    cmd.checkEnabled token
    let (l, n) ← expectPositiveInteger indeterminate l "flush frequency"
    return ({ cmd with flushFrequency := .ofInt n.toInt }, l)
  if token.toLower = ascii "ordered" then
    cmd.checkEnabled token
    return ({ cmd with ordered := true }, l)
  throw (unexpectedTokenError token "additional parameter of SET STREAMING command or semicolon")

/-- The loop of `Parse`. The name of an option is not empty, so every round
moves on. -/
def parseLoop (indeterminate : Int) : Nat → SqlSetStreamingCommand → SqlLexer →
    Except OdbcError (SqlSetStreamingCommand × SqlLexer)
  | 0, cmd, l => .ok (cmd, l)
  | fuel + 1, cmd, l => do
    let (l, hasNext) ← l.shiftOrThrow
    if hasNext && l.currentToken.type ≠ .semicolon then
      let (cmd, l) ← parseOption indeterminate cmd l
      parseLoop indeterminate fuel cmd l
    else return (cmd, l)

/-- `SqlSetStreamingCommand::Parse` of a new command. -/
def parse (indeterminate : Int) (l : SqlLexer) : Except OdbcError (SqlSetStreamingCommand × SqlLexer) := do
  let (l, enabled) ← expectBool l
  parseLoop indeterminate (l.sql.length + 1) { enabled } l

end SqlSetStreamingCommand

/-! ## The parser -/

namespace SqlParser

def unexpectedToken (token : SqlToken) : OdbcError :=
  syntaxError (ascii "Unexpected token: '" ++ token.text ++ ascii "'")

/-- `ProcessCommand` up to the call of `Parse`, with the lexer it is given. -/
def processCommand (l : SqlLexer) : Except OdbcError SqlLexer :=
  if l.currentToken.toLower = ascii "set" then do
    let (l, hasNext) ← l.shiftOrThrow
    if hasNext && l.currentToken.type = .word && l.currentToken.toLower = ascii "streaming" then return l
    throw (unexpectedToken l.currentToken)
  else .error (unexpectedToken l.currentToken)

/-- `GetNextCommand` up to the call of `Parse`; `none` is the null pointer at
the end of the text. -/
def findCommand : Nat → SqlLexer → Except OdbcError (Option SqlLexer)
  | 0, _ => .ok none
  | fuel + 1, l => do
    let (l, hasNext) ← l.shiftOrThrow
    if !hasNext then return none
    match l.currentToken.type with
    | .semicolon => findCommand fuel l
    | .word => return some (← processCommand l)
    | _ => throw (unexpectedToken l.currentToken)

/-- Where the walk of `SqlParser(sql).GetNextCommand()` gets. -/
def find (sql : Str) : Except OdbcError (Option SqlLexer) := findCommand (sql.length + 1) { sql }

/-- `SqlParser(sql).GetNextCommand()`. -/
def getNextCommand (indeterminate : Int) (sql : Str) : Except OdbcError (Option SqlSetStreamingCommand) := do
  match ← find sql with
  | none => return none
  | some l =>
    let (cmd, _) ← SqlSetStreamingCommand.parse indeterminate l
    return some cmd

end SqlParser

/-! ## Preparing a query -/

/-- What `InternalPrepareSqlQuery` leaves behind: the query that becomes the
current one, the record of an error, or a failed assertion. -/
inductive Prepared where
  | internalQuery (cmd : SqlSetStreamingCommand)
  | dataQuery (sql : Str)
  | error (record : StatusRecord)
  | assertionFailed
  deriving DecidableEq, Repr

/-- `Statement::ProcessInternalCommand`. -/
def processInternalCommand (indeterminate : Int) (query : Str) : Prepared :=
  match SqlParser.getNextCommand indeterminate query with
  | .ok (some cmd) => .internalQuery cmd
  | .ok none => .assertionFailed
  | .error err => .error ⟨err.status, err.errMessage, 0, 0⟩

/-- `Statement::InternalPrepareSqlQuery`. -/
def internalPrepareSqlQuery (indeterminate : Int) (query : Str) : Prepared :=
  if isInternalCommand query then processInternalCommand indeterminate query else .dataQuery query

example : internalPrepareSqlQuery 0 (ascii "SET STREAMING 1 batch_size 7;") =
    .internalQuery { enabled := true, batchSize := 7 } := by decide

end DocumentDbOdbc
