/-
`Connection`: how a connection is established, attempt after attempt.

Everything outside the driver is a parameter of the attempt (`World`): the
installer's profile store, the JVM, the JDBC driver behind JNI, the SSH
tunnel it may run, and the MongoDB client. Any of them may fail in any
attempt. The state keeps the fields of the class that the attempt reads or
writes; the Windows dialog and the information tables are left out.
-/
import DocumentDbOdbc.ConnectionString
import DocumentDbOdbc.DsnConfig

namespace DocumentDbOdbc

/-! ## The outside world -/

inductive JniErrorCode where
  | success | generic | jvmInit | jvmAttach
  deriving DecidableEq, Repr

structure JniErrorInfo where
  code : JniErrorCode := .success
  errCls : Str := []
  errMsg : Str := []
  deriving DecidableEq, Repr

/-- What a JNI call returns, the error info it leaves and the value it stores. -/
structure JniResult (α : Type) where
  code : JniErrorCode
  errInfo : JniErrorInfo
  value : α

/-- What the MongoDB client can throw. `ConnectCPPDocumentDB` catches the
exceptions of mongocxx, not those of bsoncxx or of the standard library. -/
inductive MongoException where
  | mongocxx (code : Int) (message what : Str)
  | other
  deriving DecidableEq, Repr

/-- The outcomes of the external steps of one attempt. -/
structure World (H : Host) where
  installer : Installer
  /-- `CreateDocumentDbClasspath` found something. -/
  classpathFound : Bool
  /-- `JniContext::Create`: the error info, and whether there is a context. -/
  createContext : JniErrorInfo × Bool
  /-- Whether `DriverManagerGetConnection` stored an object. -/
  driverManagerGetConnection : Configuration H → JniResult Bool
  isSshTunnelActive : JniResult Bool
  getSshLocalPort : JniResult Int32
  createClient : Configuration H → (localSshTunnelPort : Int32) → Except MongoException Unit
  /-- Whether the server answered `ok`. -/
  ping : Configuration H → Except MongoException Bool
  updateSqlDbmsVerInfo : Except MongoException Unit

/-- A world in which every step succeeds, without a tunnel. -/
def World.reachable (H : Host) : World H where
  installer := { profile := fun _ _ => none, indeterminate := 0 }
  classpathFound := true
  createContext := ({}, true)
  driverManagerGetConnection _ := ⟨.success, {}, true⟩
  isSshTunnelActive := ⟨.success, {}, false⟩
  getSshLocalPort := ⟨.success, {}, 0⟩
  createClient _ _ := .ok ()
  ping _ := .ok true
  updateSqlDbmsVerInfo := .ok ()

/-! ## The connection -/

/-- `jni::DocumentDbConnection`, as far as the driver asks. -/
structure DocumentDbConnection where
  isOpen : Bool
  deriving DecidableEq, Repr

/-- The fields of `Connection`; `none` and `false` are null pointers. -/
structure Connection (H : Host) where
  config : Configuration H
  jniContext : Bool
  connection : Option DocumentDbConnection
  mongoClient : Bool

namespace Connection

variable {H : Host}

/-- A new connection. -/
def init (H : Host) : Connection H := ⟨.fresh H, false, none, false⟩

/-- How `TryRestoreConnection` ends. -/
inductive Attempt where
  | connected
  | failed (err : Str)
  | raised
  deriving DecidableEq, Repr

/-- `GetJniContext`. An empty class path gives a null context and no error. -/
def getJniContext (s : Connection H) (w : World H) : Connection H × JniErrorInfo × Bool :=
  if s.jniContext then (s, {}, true)
  else if !w.classpathFound then (s, {}, false)
  else ({ s with jniContext := w.createContext.2 }, w.createContext)

/-- `DocumentDbConnection::Open` on a new object: the code returned, the error
info, and the object after the call. -/
def open_ (w : World H) (context : Bool) (config : Configuration H) (errInfo : JniErrorInfo) :
    JniErrorCode × JniErrorInfo × DocumentDbConnection :=
  if !context then
    (.jvmInit, { errInfo with errMsg := ascii "Unable to get initialized JVM.", code := .jvmInit }, ⟨false⟩)
  else
    let r := w.driverManagerGetConnection config
    if r.code = .success then (r.code, r.errInfo, ⟨r.value⟩) else (r.code, r.errInfo, ⟨false⟩)

/-- `GetInternalSSHTunnelPort`: the port, zero without a tunnel, or the text
of the error. -/
def getInternalSshTunnelPort (w : World H) : Except Str Int32 :=
  let active := w.isSshTunnelActive
  if active.code ≠ .success then .error (cStr active.errInfo.errMsg)
  else if active.value then
    let port := w.getSshLocalPort
    if port.code ≠ .success then .error (cStr port.errInfo.errMsg) else .ok port.value
  else .ok 0

/-- The text of the exception handler of `ConnectCPPDocumentDB`. -/
def exceptionText (code : Int) (message what : Str) : Str :=
  ascii "Unable to establish connection with DocumentDB." ++ ascii " code: " ++ intText code ++
    ascii " messagge: " ++ message ++ ascii " cause: " ++ what

def caught : MongoException → Attempt
  | .mongocxx code message what => .failed (cStr (exceptionText code message what))
  | .other => .raised

/-- `ConnectCPPDocumentDB`. The client is kept once it is made. -/
def connectCppDocumentDb (s : Connection H) (w : World H) (localSshTunnelPort : Int32) :
    Connection H × Attempt :=
  match w.createClient s.config localSshTunnelPort with
  | .error e => (s, caught e)
  | .ok () =>
    let s := { s with mongoClient := true }
    match w.ping s.config with
    | .error e => (s, caught e)
    | .ok false => (s, .failed (ascii "Unable to ping DocumentDB."))
    | .ok true =>
      match w.updateSqlDbmsVerInfo with
      | .error e => (s, caught e)
      | .ok () => (s, .connected)

/-- `TryRestoreConnection`. The new JDBC connection is assigned to
`connection_` before anybody asks whether it is open. -/
def tryRestoreConnection (s : Connection H) (w : World H) : Connection H × Attempt :=
  if s.connection.isSome then (s, .connected)
  else
    let (s, errInfo, ctx) := s.getJniContext w
    if errInfo.code ≠ .success then
      (s, .failed (cStr (errInfo.errCls ++ ascii ": " ++ errInfo.errMsg)))
    else
      let (code, errInfo, conn) := open_ w ctx s.config errInfo
      let err := if code ≠ .success then cStr errInfo.errMsg
        else ascii "Operation completed successfully."  -- the text of an empty `DocumentDbError`
      let s := { s with connection := some conn }
      if !(conn.isOpen && errInfo.code == .success) then (s, .failed err)
      else
        match getInternalSshTunnelPort w with
        | .error err => (s, .failed err)
        | .ok port => s.connectCppDocumentDb w port

/-- What an attempt leaves behind; no result means that an exception passed
through. -/
structure Established (H : Host) where
  state : Connection H
  records : List StatusRecord
  result : Option SqlResult

/-- `InternalEstablish(cfg)`, after `records` were added. -/
def internalEstablish (s : Connection H) (w : World H) (cfg : Configuration H)
    (records : List StatusRecord) : Established H :=
  let s := { s with config := cfg }
  if s.connection.isSome then
    ⟨s, records ++ [⟨.s08002AlreadyConnected, ascii "Already connected.", 0, 0⟩], some .error⟩
  else
    match s.config.validate with
    | .error err => ⟨s, records ++ [err], some .error⟩
    | .ok () =>
      let (s, attempt) := s.tryRestoreConnection w
      match attempt with
      | .raised => ⟨s, records, none⟩
      | .failed err =>
        ⟨s, records ++ [⟨.s08001CannotConnect,
          ascii "Failed to establish connection with the host.\n" ++ err, 0, 0⟩], some .error⟩
      | .connected => ⟨s, records, some (if records.length > 0 then .successWithInfo else .success)⟩

/-- What an application can pass: a connection string, or a configuration made
by `SQLConnect`. -/
inductive Request (H : Host) where
  | connectStr (s : Str)
  | cfg (c : Configuration H)

/-- The configuration an attempt runs with and the records of making it. A
connection string is parsed straight into `config_`, then the data source
fills the fields that are still unset. -/
def requested (s : Connection H) (w : World H) : Request H → Configuration H × List StatusRecord
  | .cfg c => (c, [])
  | .connectStr str =>
    let (c, diag) := ConnectionStringParser.parseConnectionString s.config str
    (if c.isSet .dsn then w.installer.readDsnConfiguration c.getDsn c else c, diag)

/-- `Establish`, both overloads. -/
def establish (s : Connection H) (w : World H) (r : Request H) : Established H :=
  let (c, diag) := s.requested w r
  { s with config := c }.internalEstablish w c diag

/-- `SQL_CD_TRUE`, `SQL_CD_FALSE`: the value of `SQL_ATTR_CONNECTION_DEAD`. -/
def connectionDead (s : Connection H) : Nat := if s.connection.isSome then 0 else 1

end Connection

end DocumentDbOdbc
