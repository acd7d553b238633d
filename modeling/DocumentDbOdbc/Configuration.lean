/-
`config::Configuration`: the connection attributes, each a `SettableValue`
with its default, the setters, and the printers `ToMap` and
`ToConnectString`.

The 29 fields of the class are one function from `Attr`, so that a fact about
all of them is stated once. Two setters guard their field: `SetLogPath` keeps
the old value unless the path is a directory, `SetLogLevel` unless the level
is known. Fields are private in the source, so no configuration holds a set
value that its setter would have refused; `Configuration.admitted` carries
this.
-/
import DocumentDbOdbc.Diagnostic
import Mathlib.Logic.Function.Basic

namespace DocumentDbOdbc

/-- The machine the driver runs on, as far as configuration code looks at
it: `stat`, the logger's default path, and `sizeof(std::string)` (24 with
libc++, 32 with libstdc++). -/
structure Host where
  statIsDir : Str → Bool
  defaultLogPath : Str
  sizeofString : Nat
  sizeofString_ge : 24 ≤ sizeofString

/-- `common::IsValidDirectory`. -/
def Host.isValidDirectory (H : Host) (path : Str) : Bool := path != [] && H.statIsDir (cStr path)

/-- A machine without directories, to run the definitions on. -/
def Host.diskless : Host where
  statIsDir _ := false
  defaultLogPath := ascii "/tmp"
  sizeofString := 32
  sizeofString_ge := by decide

/-! ## Enumerations -/

/-- `ReadPreference::Type`. -/
inductive ReadPreference where
  | primary | primaryPreferred | secondary | secondaryPreferred | nearest | unknown
  deriving DecidableEq, Repr

def ReadPreference.fromString (val : Str) (dflt : ReadPreference) : ReadPreference :=
  let lowerVal := spaceToUnderscore (stripSurroundingWhitespaces (toLower val))
  if lowerVal = ascii "primary" then .primary
  else if lowerVal = ascii "primary_preferred" then .primaryPreferred
  else if lowerVal = ascii "secondary" then .secondary
  else if lowerVal = ascii "secondary_preferred" then .secondaryPreferred
  else if lowerVal = ascii "nearest" then .nearest
  else dflt

def ReadPreference.toString : ReadPreference → Str
  | .primary => ascii "primary"
  | .primaryPreferred => ascii "primary_preferred"
  | .secondary => ascii "secondary"
  | .secondaryPreferred => ascii "secondary_preferred"
  | .nearest => ascii "nearest"
  | .unknown => ascii "unknown"

/-- `ScanMethod::Type`. -/
inductive ScanMethod where
  | random | idForward | idReverse | all | unknown
  deriving DecidableEq, Repr

def ScanMethod.fromString (val : Str) (dflt : ScanMethod) : ScanMethod :=
  let lowerVal := spaceToUnderscore (stripSurroundingWhitespaces (toLower val))
  if lowerVal = ascii "random" then .random
  else if lowerVal = ascii "id_forward" then .idForward
  else if lowerVal = ascii "id_reverse" then .idReverse
  else if lowerVal = ascii "all" then .all
  else dflt

def ScanMethod.toString : ScanMethod → Str
  | .idForward => ascii "id_forward"
  | .idReverse => ascii "id_reverse"
  | .all => ascii "all"
  | .random => ascii "random"
  | .unknown => ascii "unknown"

/-- `LogLevel::Type`. -/
inductive LogLevel where
  | debug | info | error | off | unknown
  deriving DecidableEq, Repr

/-- Unlike the other two, spaces are not turned into underscores. -/
def LogLevel.fromString (val : Str) (dflt : LogLevel) : LogLevel :=
  let lowerVal := stripSurroundingWhitespaces (toLower val)
  if lowerVal = ascii "debug" then .debug
  else if lowerVal = ascii "info" then .info
  else if lowerVal = ascii "error" then .error
  else if lowerVal = ascii "off" then .off
  else dflt

def LogLevel.toString : LogLevel → Str
  | .debug => ascii "debug"
  | .info => ascii "info"
  | .error => ascii "error"
  | .off => ascii "off"
  | .unknown => ascii "unknown"

/-! ## Attributes -/

/-- The fields of `Configuration`. -/
inductive Attr where
  | dsn | driver | database | hostname | port | user | password | appName | loginTimeoutSec
  | readPreference | replicaSet | retryReads | tls | tlsAllowInvalidHostnames | tlsCaFile
  | sshEnable | sshUser | sshHost | sshPrivateKeyFile | sshPrivateKeyPassphrase
  | sshStrictHostKeyChecking | sshKnownHostsFile | logLevel | logPath | scanMethod | scanLimit
  | schemaName | refreshSchema | defaultFetchSize
  deriving DecidableEq, Repr

/-- The types of field. -/
inductive Kind where
  | text | port | number | flag | readPreference | logLevel | scanMethod
  deriving DecidableEq, Repr

abbrev Kind.Val : Kind → Type
  | .text => Str
  | .port => UInt16
  | .number => Int32
  | .flag => Bool
  | .readPreference => ReadPreference
  | .logLevel => LogLevel
  | .scanMethod => ScanMethod

namespace Attr

@[reducible] def kind : Attr → Kind
  | .port => .port
  | .loginTimeoutSec | .scanLimit | .defaultFetchSize => .number
  | .retryReads | .tls | .tlsAllowInvalidHostnames | .sshEnable | .sshStrictHostKeyChecking
  | .refreshSchema => .flag
  | .readPreference => .readPreference
  | .logLevel => .logLevel
  | .scanMethod => .scanMethod
  | .dsn | .driver | .database | .hostname | .user | .password | .appName | .replicaSet
  | .tlsCaFile | .sshUser | .sshHost | .sshPrivateKeyFile | .sshPrivateKeyPassphrase
  | .sshKnownHostsFile | .logPath | .schemaName => .text

abbrev Val (a : Attr) : Type := a.kind.Val

/-- `ConnectionStringParser::Key`, the keyword of a field (`uid` and `pwd`
are further keywords of `user` and `password`, known to the parser only). -/
def key : Attr → Str
  | .dsn => ascii "dsn"
  | .driver => ascii "driver"
  | .database => ascii "database"
  | .hostname => ascii "hostname"
  | .port => ascii "port"
  | .user => ascii "user"
  | .password => ascii "password"
  | .appName => ascii "app_name"
  | .loginTimeoutSec => ascii "login_timeout_sec"
  | .readPreference => ascii "read_preference"
  | .replicaSet => ascii "replica_set"
  | .retryReads => ascii "retry_reads"
  | .tls => ascii "tls"
  | .tlsAllowInvalidHostnames => ascii "tls_allow_invalid_hostnames"
  | .tlsCaFile => ascii "tls_ca_file"
  | .sshEnable => ascii "ssh_enable"
  | .sshUser => ascii "ssh_user"
  | .sshHost => ascii "ssh_host"
  | .sshPrivateKeyFile => ascii "ssh_private_key_file"
  | .sshPrivateKeyPassphrase => ascii "ssh_private_key_passphrase"
  | .sshStrictHostKeyChecking => ascii "ssh_strict_host_key_checking"
  | .sshKnownHostsFile => ascii "ssh_known_hosts_file"
  | .logLevel => ascii "log_level"
  | .logPath => ascii "log_path"
  | .scanMethod => ascii "scan_method"
  | .scanLimit => ascii "scan_limit"
  | .schemaName => ascii "schema_name"
  | .refreshSchema => ascii "refresh_schema"
  | .defaultFetchSize => ascii "default_fetch_size"

/-- `Configuration::DefaultValue`. -/
def defaultValue (H : Host) : (a : Attr) → a.Val
  | .dsn => ascii "DocumentDB DSN"
  | .driver => ascii "Amazon DocumentDB"
  | .port => (27017 : UInt16)
  | .tls => true
  | .tlsAllowInvalidHostnames => false
  | .scanMethod => ScanMethod.random
  | .scanLimit => (1000 : Int32)
  | .schemaName => ascii "_default"
  | .refreshSchema => false
  | .sshEnable => false
  | .sshStrictHostKeyChecking => true
  | .logLevel => LogLevel.error
  | .logPath => H.defaultLogPath
  | .appName => ascii "Amazon DocumentDB ODBC Driver"
  | .loginTimeoutSec => (0 : Int32)
  | .readPreference => ReadPreference.primary
  | .retryReads => true
  | .defaultFetchSize => (2000 : Int32)
  | .database | .hostname | .user | .password | .tlsCaFile | .sshUser | .sshHost
  | .sshPrivateKeyFile | .sshPrivateKeyPassphrase | .sshKnownHostsFile | .replicaSet => ([] : Str)

/-- The values a field's setter takes. -/
@[reducible] def Admits (H : Host) : (a : Attr) → a.Val → Prop
  | .logPath, path => H.isValidDirectory path = true
  | .logLevel, level => level ≠ LogLevel.unknown
  | _, _ => True

end Attr

/-- `SettableValue<T>`. -/
structure SettableValue (α : Type) where
  val : α
  isSet : Bool := false
  deriving DecidableEq, Repr

/-- `config::Configuration`. -/
@[ext] structure Configuration (H : Host) where
  attr : (a : Attr) → SettableValue a.Val
  admitted : ∀ a, (attr a).isSet = true → a.Admits H (attr a).val

namespace Configuration

variable {H : Host}

/-- A default-constructed configuration. -/
def fresh (H : Host) : Configuration H where
  attr a := ⟨a.defaultValue H, false⟩
  admitted _ h := by simp at h

/-- `field.SetValue(v)`. -/
def setValue (c : Configuration H) (a : Attr) (v : a.Val) (h : a.Admits H v) : Configuration H where
  attr := Function.update c.attr a ⟨v, true⟩
  admitted b hb := by
    by_cases hba : b = a
    · subst hba
      simpa using h
    · rw [Function.update_of_ne hba] at hb ⊢
      exact c.admitted b hb

def getValue (c : Configuration H) (a : Attr) : a.Val := (c.attr a).val
def isSet (c : Configuration H) (a : Attr) : Bool := (c.attr a).isSet

def getDsn (c : Configuration H) : Str := c.getValue .dsn
def getUser (c : Configuration H) : Str := c.getValue .user
def getPassword (c : Configuration H) : Str := c.getValue .password

def setDsn (c : Configuration H) (v : Str) := c.setValue .dsn v trivial
def setDriver (c : Configuration H) (v : Str) := c.setValue .driver v trivial
def setDatabase (c : Configuration H) (v : Str) := c.setValue .database v trivial
def setHostname (c : Configuration H) (v : Str) := c.setValue .hostname v trivial
def setPort (c : Configuration H) (v : UInt16) := c.setValue .port v trivial
def setUser (c : Configuration H) (v : Str) := c.setValue .user v trivial
def setPassword (c : Configuration H) (v : Str) := c.setValue .password v trivial
def setApplicationName (c : Configuration H) (v : Str) := c.setValue .appName v trivial
def setLoginTimeoutSeconds (c : Configuration H) (v : Int32) := c.setValue .loginTimeoutSec v trivial
def setReadPreference (c : Configuration H) (v : ReadPreference) := c.setValue .readPreference v trivial
def setReplicaSet (c : Configuration H) (v : Str) := c.setValue .replicaSet v trivial
def setRetryReads (c : Configuration H) (v : Bool) := c.setValue .retryReads v trivial
def setTls (c : Configuration H) (v : Bool) := c.setValue .tls v trivial
def setTlsAllowInvalidHostnames (c : Configuration H) (v : Bool) :=
  c.setValue .tlsAllowInvalidHostnames v trivial
def setTlsCaFile (c : Configuration H) (v : Str) := c.setValue .tlsCaFile v trivial
def setSshEnable (c : Configuration H) (v : Bool) := c.setValue .sshEnable v trivial
def setSshUser (c : Configuration H) (v : Str) := c.setValue .sshUser v trivial
def setSshHost (c : Configuration H) (v : Str) := c.setValue .sshHost v trivial
def setSshPrivateKeyFile (c : Configuration H) (v : Str) := c.setValue .sshPrivateKeyFile v trivial
def setSshPrivateKeyPassphrase (c : Configuration H) (v : Str) :=
  c.setValue .sshPrivateKeyPassphrase v trivial
def setSshStrictHostKeyChecking (c : Configuration H) (v : Bool) :=
  c.setValue .sshStrictHostKeyChecking v trivial
def setSshKnownHostsFile (c : Configuration H) (v : Str) := c.setValue .sshKnownHostsFile v trivial
def setScanMethod (c : Configuration H) (v : ScanMethod) := c.setValue .scanMethod v trivial
def setScanLimit (c : Configuration H) (v : Int32) := c.setValue .scanLimit v trivial
def setSchemaName (c : Configuration H) (v : Str) := c.setValue .schemaName v trivial
def setRefreshSchema (c : Configuration H) (v : Bool) := c.setValue .refreshSchema v trivial
def setDefaultFetchSize (c : Configuration H) (v : Int32) := c.setValue .defaultFetchSize v trivial

/-- `SetLogLevel`; the logger's own level is left out. -/
def setLogLevel (c : Configuration H) (level : LogLevel) : Configuration H :=
  if h : level ≠ .unknown then c.setValue .logLevel level h else c

/-- `SetLogPath`; the logger's own path is left out. -/
def setLogPath (c : Configuration H) (path : Str) : Configuration H :=
  if h : H.isValidDirectory path = true then c.setValue .logPath path h else c

/-- `Configuration::Validate`, with the error it throws. -/
def validate (c : Configuration H) : Except StatusRecord Unit :=
  if !c.isSet .hostname || !c.isSet .user || !c.isSet .password || !c.isSet .database then
    .error ⟨.s01S00InvalidConnectionStringAttribute,
      ascii "Hostname, username, password, and database are required to connect.", 0, 0⟩
  else
    let sshTunnel := (c.getValue .sshEnable : Bool) || c.isSet .sshHost || c.isSet .sshUser ||
      c.isSet .sshPrivateKeyFile
    if sshTunnel && (!c.isSet .sshHost || !c.isSet .sshUser || !c.isSet .sshPrivateKeyFile) then
      .error ⟨.s01S00InvalidConnectionStringAttribute,
        ascii "If using an internal SSH tunnel, all of ssh_host, " ++
          ascii "ssh_user, ssh_private_key_file are required to connect.", 0, 0⟩
    else .ok ()

/-! ## Printing -/

/-- `Configuration::ArgumentMap`, a `std::map` from key to text: the entries
in the order of the keys. -/
abbrev ArgumentMap := List (Str × Str)

/-- `map[key] = value`. -/
def ArgumentMap.put (key value : Str) : ArgumentMap → ArgumentMap
  | [] => [(key, value)]
  | (k, v) :: m =>
    if key = k then (key, value) :: m
    else if key < k then (key, value) :: (k, v) :: m
    else (k, v) :: ArgumentMap.put key value m

/-- `std::ostream << int32_t`. -/
def int32Text (n : Int32) : Str := intText n.toInt

/-- The text `AddToMap` stores for a value, by its type
(`isJdbcFormat = false`). -/
def valueText : (k : Kind) → k.Val → Str
  | .text, v => v
  | .port, v => Numeral.decimal v.toNat
  | .number, v => int32Text v
  | .flag, v => if v then ascii "true" else ascii "false"
  | .readPreference, v => v.toString
  | .logLevel, v => v.toString
  | .scanMethod, v => v.toString

/-- `Configuration::AddToMap`. -/
def addToMap (m : ArgumentMap) (key : Str) {k : Kind} (value : SettableValue k.Val) : ArgumentMap :=
  if value.isSet then ArgumentMap.put key (valueText k value.val) m else m

/-- The fields in the order in which `ToMap` adds them. -/
def mapOrder : List Attr :=
  [.dsn, .driver, .database, .hostname, .port, .user, .password, .appName, .loginTimeoutSec,
   .readPreference, .replicaSet, .retryReads, .tls, .tlsAllowInvalidHostnames, .tlsCaFile,
   .sshEnable, .sshUser, .sshHost, .sshPrivateKeyFile, .sshPrivateKeyPassphrase,
   .sshStrictHostKeyChecking, .sshKnownHostsFile, .logLevel, .logPath, .scanMethod, .scanLimit,
   .schemaName, .refreshSchema, .defaultFetchSize]

/-- `Configuration::ToMap` into an empty map. -/
def toMap (c : Configuration H) : ArgumentMap :=
  mapOrder.foldl (fun m a => addToMap m a.key (c.attr a)) []

/-- One round of the loop of `ToConnectString`: a value with a space goes in
braces, an empty one is left out. -/
def connectStringEntry (key value : Str) : Str :=
  if value = [] then []
  else if (32 : UInt8) ∉ value then key ++ ascii "=" ++ value ++ ascii ";"
  else key ++ ascii "=\x7b" ++ value ++ ascii "\x7d;"

/-- `Configuration::ToConnectString`. -/
def toConnectString (c : Configuration H) : Str :=
  c.toMap.flatMap fun (key, value) => connectStringEntry key value

end Configuration

end DocumentDbOdbc
