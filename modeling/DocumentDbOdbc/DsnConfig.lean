/-
`dsn_config`: attributes read from a data source and written to one.

The profile store belongs to the ODBC installer and is a parameter: what
`ReadDsnString` finds under a key. `ReadDsnConfiguration` fills the fields
that are not set yet and never overwrites one that is. `ProfileStore` is a
store that is a map, with the installer's functions on it; `RegisterDsn` writes
to it and `ReadDsnString` reads from it through a buffer.
-/
import DocumentDbOdbc.Configuration
import DocumentDbOdbc.Platform

namespace DocumentDbOdbc

/-- The installer's profile store. `indeterminate` is the value of an `int`
that was declared and not assigned. -/
structure Installer where
  profile : (dsn key : Str) → Option Str
  indeterminate : Int32

/-- `LexicalCast<int>` of a text. -/
def lexicalCastInt (indeterminate : Int32) (s : Str) : Int32 :=
  .ofInt (streamInt (-2147483648) 2147483647 indeterminate.toInt s)

namespace Installer

variable {H : Host} (i : Installer) (dsn : Str)

def readDsnString (key : Str) : Option Str := i.profile dsn key

def readDsnInt (key : Str) : Option Int32 := (i.readDsnString dsn key).map (lexicalCastInt i.indeterminate)

def readDsnBool (key : Str) : Option Bool := (i.readDsnString dsn key).map (· == ascii "true")

/-- `if (value.IsSet() && !config.IsFieldSet()) config.SetField(value)`. -/
def fillUnset {α : Type} (a : Attr) (value : Option α) (set : Configuration H → α → Configuration H)
    (c : Configuration H) : Configuration H :=
  match value with
  | some v => if c.isSet a then c else set c v
  | none => c

/-- The statements of `ReadDsnConfiguration` about one field; there are none
about the DSN and the driver. -/
def readDsnAttr (c : Configuration H) : Attr → Configuration H
  | .dsn | .driver => c
  | .hostname => fillUnset .hostname (i.readDsnString dsn Attr.hostname.key) .setHostname c
  | .port => fillUnset .port (i.readDsnInt dsn Attr.port.key) (fun c n => c.setPort (.ofInt n.toInt)) c
  | .database => fillUnset .database (i.readDsnString dsn Attr.database.key) .setDatabase c
  | .user => fillUnset .user (i.readDsnString dsn Attr.user.key) .setUser c
  | .password => fillUnset .password (i.readDsnString dsn Attr.password.key) .setPassword c
  | .appName => fillUnset .appName (i.readDsnString dsn Attr.appName.key) .setApplicationName c
  | .loginTimeoutSec =>
    fillUnset .loginTimeoutSec (i.readDsnInt dsn Attr.loginTimeoutSec.key) .setLoginTimeoutSeconds c
  | .readPreference =>
    fillUnset .readPreference (i.readDsnString dsn Attr.readPreference.key)
      (fun c v => c.setReadPreference (.fromString v .primary)) c
  | .replicaSet => fillUnset .replicaSet (i.readDsnString dsn Attr.replicaSet.key) .setReplicaSet c
  | .retryReads => fillUnset .retryReads (i.readDsnBool dsn Attr.retryReads.key) .setRetryReads c
  | .tls => fillUnset .tls (i.readDsnBool dsn Attr.tls.key) .setTls c
  | .tlsAllowInvalidHostnames =>
    fillUnset .tlsAllowInvalidHostnames (i.readDsnBool dsn Attr.tlsAllowInvalidHostnames.key)
      .setTlsAllowInvalidHostnames c
  | .tlsCaFile => fillUnset .tlsCaFile (i.readDsnString dsn Attr.tlsCaFile.key) .setTlsCaFile c
  | .sshEnable => fillUnset .sshEnable (i.readDsnBool dsn Attr.sshEnable.key) .setSshEnable c
  | .sshUser => fillUnset .sshUser (i.readDsnString dsn Attr.sshUser.key) .setSshUser c
  | .sshHost => fillUnset .sshHost (i.readDsnString dsn Attr.sshHost.key) .setSshHost c
  | .sshPrivateKeyFile =>
    fillUnset .sshPrivateKeyFile (i.readDsnString dsn Attr.sshPrivateKeyFile.key) .setSshPrivateKeyFile c
  | .sshPrivateKeyPassphrase =>
    fillUnset .sshPrivateKeyPassphrase (i.readDsnString dsn Attr.sshPrivateKeyPassphrase.key)
      .setSshPrivateKeyPassphrase c
  | .sshStrictHostKeyChecking =>
    fillUnset .sshStrictHostKeyChecking (i.readDsnBool dsn Attr.sshStrictHostKeyChecking.key)
      .setSshStrictHostKeyChecking c
  | .sshKnownHostsFile =>
    fillUnset .sshKnownHostsFile (i.readDsnString dsn Attr.sshKnownHostsFile.key) .setSshKnownHostsFile c
  | .logLevel =>
    fillUnset .logLevel (i.readDsnString dsn Attr.logLevel.key)
      (fun c v => c.setLogLevel (.fromString v .error)) c
  | .logPath => fillUnset .logPath (i.readDsnString dsn Attr.logPath.key) .setLogPath c
  | .scanMethod =>
    fillUnset .scanMethod (i.readDsnString dsn Attr.scanMethod.key)
      (fun c v => c.setScanMethod (.fromString v .random)) c
  | .scanLimit =>
    fillUnset .scanLimit (i.readDsnInt dsn Attr.scanLimit.key)
      (fun c n => if n > 0 then c.setScanLimit n else c) c
  | .schemaName => fillUnset .schemaName (i.readDsnString dsn Attr.schemaName.key) .setSchemaName c
  | .refreshSchema => fillUnset .refreshSchema (i.readDsnBool dsn Attr.refreshSchema.key) .setRefreshSchema c
  | .defaultFetchSize =>
    fillUnset .defaultFetchSize (i.readDsnInt dsn Attr.defaultFetchSize.key)
      (fun c n => if n > 0 then c.setDefaultFetchSize n else c) c

/-- The fields in the order in which `ReadDsnConfiguration` reads them. -/
def readOrder : List Attr :=
  [.hostname, .port, .database, .user, .password, .appName, .loginTimeoutSec, .readPreference,
   .replicaSet, .retryReads, .tls, .tlsAllowInvalidHostnames, .tlsCaFile, .sshEnable, .sshUser,
   .sshHost, .sshPrivateKeyFile, .sshPrivateKeyPassphrase, .sshStrictHostKeyChecking,
   .sshKnownHostsFile, .logLevel, .logPath, .scanMethod, .scanLimit, .schemaName, .refreshSchema,
   .defaultFetchSize]

/-- `ReadDsnConfiguration`. -/
def readDsnConfiguration (c : Configuration H) : Configuration H :=
  readOrder.foldl (fun c a => i.readDsnAttr (cStr dsn) c a) c

end Installer

/-! ## A profile store -/

/-- The code units of a string of `SQLWCHAR`, without the terminator. -/
abbrev WideStr := List Nat

/-- The entries of `ODBC.INI`, by section and key. -/
abbrev ProfileStore := WideStr → WideStr → Option WideStr

/-- `utility::ToWCHARVector`: as many characters as can be converted. -/
def Platform.toWCHARVector (P : Platform) (value : Str) : WideStr := (P.convertIn value (cStr value).length).1

/-- `utility::SqlWcharToString` of a terminated string. -/
def sqlWcharToString (sqlStr : WideStr) : Str := sqlStr.flatMap Utf8.encode

namespace ProfileStore

/-- `SQLGetPrivateProfileString`: the characters it copies and their number. -/
def getPrivateProfileString (s : ProfileStore) (section_ entry dflt : WideStr) (size : Nat) : WideStr × Nat :=
  let copied := ((s section_ entry).getD dflt).take (size - 1)
  (copied, copied.length)

/-- `SQLWritePrivateProfileString`; no string removes the entry, and fails if
there is none. -/
def writePrivateProfileString (s : ProfileStore) (section_ entry : WideStr) (string : Option WideStr) :
    ProfileStore × Bool :=
  if string.isNone && (s section_ entry).isNone then (s, false)
  else (fun d k => if d = section_ ∧ k = entry then string else s d k, true)

/-- `SQLWriteDSNToIni`: a new section that names the driver. -/
def writeDsnToIni (s : ProfileStore) (dsn driver : WideStr) : ProfileStore := fun d k =>
  if d = dsn then (if k = (ascii "Driver").map UInt8.toNat then some driver else none) else s d k

variable (P : Platform) {H : Host}

/-- `BUFFER_SIZE`. -/
def bufferSize : Nat := 1024 * 1024

/-- The text that stands for a missing entry. -/
def unique : Str := ascii "35a920dd-8837-43d2-a846-e01a2e7b5f84"

/-- `ReadDsnString`. -/
def readDsnString (s : ProfileStore) (dsn key : Str) : Option Str :=
  let get := s.getPrivateProfileString (P.toWCHARVector dsn) (P.toWCHARVector key) (P.toWCHARVector unique)
  let first := get bufferSize
  let buf := if bufferSize < first.2 then (get (first.2 + 1)).1 else first.1
  let res := sqlWcharToString buf
  if res ≠ unique then some res else none

/-- `WriteDsnString`; the error of a failure is `ODBC_ERROR_COMPONENT_NOT_FOUND`. -/
def writeDsnString (s : ProfileStore) (dsn key : Str) (value : Option Str) : ProfileStore × Bool :=
  let written := s.writePrivateProfileString (P.toWCHARVector dsn) (P.toWCHARVector key)
    (value.map P.toWCHARVector)
  if !written.2 then (written.1, value.isNone) else (written.1, true)

/-- The keys `RegisterDsn` removes and does not write. -/
def isCredential (key : Str) : Bool :=
  key = Attr.password.key || key = ascii "pwd" || key = Attr.user.key || key = ascii "uid" ||
    key = Attr.sshPrivateKeyPassphrase.key

/-- The loop of `RegisterDsn`. -/
def registerEntries (dsn : Str) : Configuration.ArgumentMap → ProfileStore → ProfileStore × Bool
  | [], s => (s, true)
  | (key, value) :: map, s =>
    let written := s.writeDsnString P dsn key (if isCredential key then none else some value)
    if written.2 then registerEntries dsn map written.1 else (written.1, false)

/-- `RegisterDsn`. -/
def registerDsn (s : ProfileStore) (config : Configuration H) (driver : Str) : ProfileStore × Bool :=
  let dsn := cStr config.getDsn
  let map := config.toMap.filter fun e => e.1 != Attr.dsn.key && e.1 != Attr.driver.key
  registerEntries P dsn map (s.writeDsnToIni (P.toWCHARVector dsn) (P.toWCHARVector driver))

/-- The store as `ReadDsnConfiguration` sees it. -/
def installer (s : ProfileStore) (indeterminate : Int32) : Installer := ⟨s.readDsnString P, indeterminate⟩

end ProfileStore

end DocumentDbOdbc
