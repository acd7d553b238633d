/-
`EncodeURIComponent` and the connection strings for the JDBC driver and the
MongoDB client.

Both strings are the user and the password, the address, a database and the
options of a map, printed in the order of their keys. The address is put in as
it is; everything the application sets is escaped.
-/
import DocumentDbOdbc.Configuration
import DocumentDbOdbc.Lib.Percent

namespace DocumentDbOdbc

/-- The characters `EncodeURIComponent` leaves alone. -/
def isUnescaped (c : UInt8) : Bool :=
  isAlnum c || c == 45 || c == 95 || c == 126 || c == 46 || c == 42 || c == 33 || c == 40 || c == 41

/-- `common::EncodeURIComponent`; the stream prints a byte without leading
zeros. -/
def encodeURIComponent (unencoded : Str) : Str :=
  unencoded.flatMap fun c => if isUnescaped c then [c] else 37 :: Percent.hexNumber c

/-- `ReadPreference::ToJdbcString`. -/
def ReadPreference.toJdbcString : ReadPreference → Str
  | .primaryPreferred => ascii "primaryPreferred"
  | .secondary => ascii "secondary"
  | .secondaryPreferred => ascii "secondaryPreferred"
  | .nearest => ascii "nearest"
  | .primary | .unknown => ascii "primary"

/-- `ScanMethod::ToJdbcString`. -/
def ScanMethod.toJdbcString : ScanMethod → Str
  | .idForward => ascii "idForward"
  | .idReverse => ascii "idReverse"
  | .all => ascii "all"
  | .random | .unknown => ascii "random"

namespace Configuration

variable {H : Host}

/-- The text `AddToMap` stores for a value, by its type
(`isJdbcFormat = true` for the two types that know it). -/
def jdbcValueText : (k : Kind) → k.Val → Str
  | .readPreference, v => v.toJdbcString
  | .scanMethod, v => v.toJdbcString
  | .text, v => valueText .text v
  | .port, v => valueText .port v
  | .number, v => valueText .number v
  | .flag, v => valueText .flag v
  | .logLevel, v => valueText .logLevel v

/-- `AddToMap` of the fields under the keys. -/
def addOptions (c : Configuration H) (options : List (Attr × String)) (res : ArgumentMap) : ArgumentMap :=
  options.foldl (fun res o =>
    if (c.attr o.1).isSet then ArgumentMap.put (ascii o.2) (jdbcValueText o.1.kind (c.attr o.1).val) res else res) res

def mongoCommonOptions : List (Attr × String) :=
  [(.readPreference, "readPreference"), (.replicaSet, "replicaSet"), (.retryReads, "retryReads"), (.tls, "tls"),
   (.tlsAllowInvalidHostnames, "tlsAllowInvalidHostnames"), (.tlsCaFile, "tlsCAFile")]

/-- `Configuration::ToMongoCommonOptionsMap`. -/
def toMongoCommonOptionsMap (c : Configuration H) (res : ArgumentMap) : ArgumentMap := c.addOptions mongoCommonOptions res

def jdbcOptions : List (Attr × String) :=
  [(.loginTimeoutSec, "loginTimeoutSec"), (.sshUser, "sshUser"), (.sshHost, "sshHost"),
   (.sshPrivateKeyFile, "sshPrivateKeyFile"), (.sshPrivateKeyPassphrase, "sshPrivateKeyPassphrase"),
   (.sshStrictHostKeyChecking, "sshStrictHostKeyChecking"), (.sshKnownHostsFile, "sshKnownHostsFile"),
   (.logLevel, "logLevel"), (.logPath, "logPath"), (.scanMethod, "scanMethod"), (.scanLimit, "scanLimit"),
   (.schemaName, "schemaName"), (.refreshSchema, "refreshSchema"), (.defaultFetchSize, "defaultFetchSize")]

/-- `Configuration::ToJdbcOptionsMap`. -/
def toJdbcOptionsMap (c : Configuration H) (res : ArgumentMap) : ArgumentMap :=
  c.addOptions jdbcOptions (c.toMongoCommonOptionsMap res)

/-- `&key=value` -/
def subsequentOption (key value : Str) : Str := ascii "&" ++ key ++ ascii "=" ++ encodeURIComponent value

/-- `GetPort()` as text. -/
def portText (c : Configuration H) : Str := Numeral.decimal (c.getValue .port : UInt16).toNat

/-- `Configuration::ToJdbcConnectionString`. The logger's options are not
passed on. -/
def toJdbcConnectionString (c : Configuration H) : Str :=
  ascii "jdbc:documentdb:" ++ (ascii "//" ++ encodeURIComponent c.getUser) ++
    (ascii ":" ++ encodeURIComponent c.getPassword) ++ (ascii "@" ++ c.getValue .hostname) ++ (ascii ":" ++ c.portText) ++
    (ascii "/" ++ encodeURIComponent (c.getValue .database)) ++
    (ascii "?appName=" ++ encodeURIComponent (c.getValue .appName)) ++
    (c.toJdbcOptionsMap []).flatMap fun (key, value) =>
      if key ≠ ascii "logLevel" ∧ key ≠ ascii "logPath" ∧ value ≠ [] then subsequentOption key value else []

/-- `Configuration::ToMongoDbConnectionString`. -/
def toMongoDbConnectionString (c : Configuration H) (localSSHTunnelPort : Int32) : Str :=
  let host := if localSSHTunnelPort = 0 then c.getValue .hostname else ascii "localhost"
  let port := if localSSHTunnelPort = 0 then c.portText else int32Text localSSHTunnelPort
  let loginTimeoutSeconds := c.getValue .loginTimeoutSec
  ascii "mongodb:" ++ (ascii "//" ++ encodeURIComponent c.getUser) ++ (ascii ":" ++ encodeURIComponent c.getPassword) ++
    (ascii "@" ++ host) ++ (ascii ":" ++ port) ++ ascii "/admin" ++
    (ascii "?" ++ ascii "appName" ++ ascii "=" ++ encodeURIComponent (c.getValue .appName)) ++
    (ascii "&" ++ ascii "authMechanism" ++ ascii "=SCRAM-SHA-1") ++
    (if (loginTimeoutSeconds : Int32) ≠ 0 then
      subsequentOption (ascii "connectTimeoutMS") (intText (1000 * (loginTimeoutSeconds : Int32).toInt)) else []) ++
    (c.toMongoCommonOptionsMap []).flatMap fun (key, value) => if value ≠ [] then subsequentOption key value else []

end Configuration

end DocumentDbOdbc
