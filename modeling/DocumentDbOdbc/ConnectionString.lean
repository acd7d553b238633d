/-
`config_tools` and `config::ConnectionStringParser`: how a connection string
becomes attributes of a `Configuration`.

The parser takes its segments off the right end of the text: it looks for the
last delimiter and the last `=` of what is left, handles the pair between
them and drops it. Every function returns the diagnostic records it adds; a
caller that passes no diagnostics storage gets the same configuration.
-/
import DocumentDbOdbc.Configuration

namespace DocumentDbOdbc

/-- `std::to_string` limits of the numeric attributes. -/
def uint16Max : Nat := 65535
def uint32Max : Nat := 4294967295

/-! ## Addresses -/

/-- `EndPoint`, default-constructed empty. -/
structure EndPoint where
  host : Str := []
  port : UInt16 := 0
  range : UInt16 := 0
  deriving DecidableEq, Repr

def optionValueChanged (message : Str) : StatusRecord := { sqlState := .s01S02OptionValueChanged, message }

/-- `ParsePort`; zero is the failure value. -/
def parsePort (value : Str) : UInt16 × List StatusRecord :=
  let port := stripSurroundingWhitespaces value
  if !allDigits port then
    (0, [optionValueChanged (ascii "Unexpected port characters: '" ++ port ++ ascii "'. Ignoring address.")])
  else if 6 ≤ port.length then  -- `sizeof("65535")` counts the terminator
    (0, [optionValueChanged (ascii "Port value is too large: '" ++ port ++ ascii "'. Ignoring address.")])
  else
    let intPort := extractDigits int32Max port
    if intPort = 0 ∨ uint16Max < intPort then
      (0, [optionValueChanged
        (ascii "Port value is out of range: '" ++ port ++ ascii "'. Ignoring address.")])
    else (UInt16.ofNat intPort, [])

/-- `ParsePortRange`: whether it succeeded, and the end point with the port
and range it stored. Without `..` the port is stored even when it is the
failure value. -/
def parsePortRange (value : Str) (endPoint : EndPoint) : Bool × EndPoint × List StatusRecord :=
  match value.idxOf? 46 with
  | none =>
    let (port, diag) := parsePort value
    (port != 0, { endPoint with range := 0, port }, diag)
  | some sepPos =>
    if value.length < sepPos + 2 ∨ value[sepPos + 1]? ≠ some 46 then
      (false, endPoint, [optionValueChanged
        (ascii "Unexpected number of '.' characters in the following address: '" ++ value ++
          ascii "'. Ignoring address.")])
    else
      let (rangeBegin, diag) := parsePort (value.take sepPos)
      if rangeBegin = 0 then (false, endPoint, diag)
      else
        let (rangeEnd, diag') := parsePort (value.drop (sepPos + 2))
        if rangeEnd = 0 then (false, endPoint, diag ++ diag')
        else if rangeEnd < rangeBegin then
          (false, endPoint, diag ++ diag' ++ [optionValueChanged
            (ascii "Port range end is less than port range begin in the following address: '" ++
              value ++ ascii "'. Ignoring address.")])
        else (true, { endPoint with port := rangeBegin, range := rangeEnd - rangeBegin }, diag ++ diag')

/-- `ParseSingleAddress`. The host is stored before the port is looked at. -/
def parseSingleAddress (H : Host) (value : Str) (endPoint : EndPoint) :
    Bool × EndPoint × List StatusRecord :=
  let colonNum := value.count 58
  if colonNum = 0 then
    (true, { endPoint with host := value, port := Attr.defaultValue H .port }, [])
  else if colonNum ≠ 1 then
    (false, endPoint, [optionValueChanged
      (ascii "Unexpected number of ':' characters in the following address: '" ++ value ++
        ascii "'. Ignoring address.")])
  else
    let colonPos := value.idxOf 58
    let endPoint := { endPoint with host := value.take colonPos }
    if colonPos = value.length - 1 then
      (false, endPoint, [optionValueChanged
        (ascii "Port is missing in the following address: '" ++ value ++ ascii "'. Ignoring address.")])
    else parsePortRange (value.drop (colonPos + 1)) endPoint

/-! ## Attribute pairs -/

namespace ConnectionStringParser

variable {H : Host}

/-- A configuration and the records added on the way to it. -/
abbrev Parsed (H : Host) := Configuration H × List StatusRecord

/-- The keywords in the order in which `HandleAttributePair` compares them,
with the field each sets. -/
def keywords : List (Str × Attr) :=
  [.dsn, .database, .hostname, .port, .appName, .loginTimeoutSec, .readPreference, .replicaSet,
   .retryReads, .tls, .tlsAllowInvalidHostnames, .tlsCaFile, .sshEnable, .sshUser, .sshHost,
   .sshPrivateKeyFile, .sshPrivateKeyPassphrase, .sshStrictHostKeyChecking, .sshKnownHostsFile,
   .logLevel, .logPath, .scanMethod, .scanLimit, .schemaName, .refreshSchema, .defaultFetchSize,
   .driver, .user].map (fun a : Attr => (a.key, a)) ++
  [(ascii "uid", .user), (Attr.password.key, .password), (ascii "pwd", .password)]

/-- The field a keyword names. -/
def attrOfKey (lKey : Str) : Option Attr := keywords.lookup lKey

/-- `ConnectionStringParser::StringToBool`; `none` is `AI_UNRECOGNIZED`. -/
def stringToBool (value : Str) : Option Bool :=
  let lower := toLower value
  if lower = ascii "true" then some true
  else if lower = ascii "false" then some false
  else none

/-- `ConnectionStringParser::MakeErrorMessage`. -/
def makeErrorMessage (msg : String) (key value : Str) : Str :=
  ascii msg ++ ascii " [key='" ++ key ++ ascii "', value='" ++ value ++ ascii "']"

/-- A branch that adds a record and returns. -/
def rejected (c : Configuration H) (message : Str) : Parsed H := (c, [optionValueChanged message])

/-- The branch of `port`. -/
def handlePort (c : Configuration H) (key value : Str) : Parsed H :=
  if value = [] then
    rejected c (makeErrorMessage "Port attribute value is empty. Using default value." key value)
  else if !allDigits value then
    rejected c (makeErrorMessage
      "Port attribute value contains unexpected characters. Using default value." key value)
  else if H.sizeofString ≤ value.length then
    rejected c (makeErrorMessage "Port attribute value is too large. Using default value." key value)
  else
    let numValue := extractDigits int32Max value
    if numValue = 0 ∨ uint16Max < numValue then
      rejected c (makeErrorMessage
        "Port attribute value is out of range. Using default value." key value)
    else (c.setPort (UInt16.ofNat numValue), [])

/-- The branches of the `int32_t` attributes: digits only, not too many, at
least `least` and at most `UINT32_MAX`. -/
def handleNumber (set : Configuration H → Int32 → Configuration H) (least : Nat)
    (unexpected tooLarge outOfRange : String) (c : Configuration H) (key value : Str) : Parsed H :=
  if !allDigits value then rejected c (makeErrorMessage unexpected key value)
  else if H.sizeofString ≤ value.length then rejected c (makeErrorMessage tooLarge key value)
  else
    let numValue := extractDigits int64Max value
    if numValue < least ∨ uint32Max < numValue then rejected c (makeErrorMessage outOfRange key value)
    else (set c (Int32.ofNat numValue), [])

def handleLoginTimeoutSec : Configuration H → Str → Str → Parsed H :=
  handleNumber Configuration.setLoginTimeoutSeconds 0
    "Login timeout seconds attribute value contains unexpected characters. Using default value."
    "Login timeout seconds attribute value is too large. Using default value."
    "Login timeout seconds attribute value is out of range. Using default value."

def handleScanLimit : Configuration H → Str → Str → Parsed H :=
  handleNumber Configuration.setScanLimit 1
    "Scan limit attribute value contains unexpected characters. Using default value."
    "Scan limit size attribute value is too large. Using default value."
    "Scan limit attribute value is out of range. Using default value."

def handleDefaultFetchSize : Configuration H → Str → Str → Parsed H :=
  handleNumber Configuration.setDefaultFetchSize 1
    "Default fetch size attribute value contains unexpected characters. Using default value."
    "Default fetch size attribute value is too large. Using default value."
    "Default fetch size attribute value is out of range. Using default value."

/-- The branches of the `bool` attributes. -/
def handleBool (set : Configuration H → Bool → Configuration H) (c : Configuration H)
    (key value : Str) : Parsed H :=
  match stringToBool value with
  | none => rejected c (makeErrorMessage "Unrecognized bool value. Using default value." key value)
  | some b => (set c b, [])

def handleReadPreference (c : Configuration H) (value : Str) : Parsed H :=
  let preference := ReadPreference.fromString value .unknown
  if preference = .unknown then
    rejected c (ascii "Specified read preference is not supported. Default value used ('primary').")
  else (c.setReadPreference preference, [])

def handleLogLevel (c : Configuration H) (value : Str) : Parsed H :=
  let level := LogLevel.fromString value .unknown
  if level = .unknown then
    rejected c (ascii "Specified log level is not supported. Default value used ('error').")
  else (c.setLogLevel level, [])

def handleScanMethod (c : Configuration H) (value : Str) : Parsed H :=
  let method := ScanMethod.fromString value .unknown
  if method = .unknown then
    rejected c (ascii "Specified scan method is not supported. Default value used ('random').")
  else (c.setScanMethod method, [])

/-- The branch of `hostname`. The address is stored whether or not it parsed,
and its port only where no port is set. -/
def handleHostname (c : Configuration H) (value : Str) : Parsed H :=
  let (_, endpoint, diag) := parseSingleAddress H value {}
  let c := c.setHostname endpoint.host
  (if !c.isSet .port then c.setPort endpoint.port else c, diag)

def handleUser (c : Configuration H) (value : Str) : Parsed H :=
  (c.setUser value,
    if c.getUser ≠ [] then
      [optionValueChanged (ascii "Re-writing USER (have you specified it several times?")] else [])

def handlePassword (c : Configuration H) (value : Str) : Parsed H :=
  (c.setPassword value,
    if c.getPassword ≠ [] then
      [optionValueChanged (ascii "Re-writing PASSWORD (have you specified it several times?")] else [])

/-- The branch of each field. -/
def handleAttr (c : Configuration H) (key value : Str) : Attr → Parsed H
  | .dsn => (c.setDsn value, [])
  | .database => (c.setDatabase value, [])
  | .hostname => handleHostname c value
  | .port => handlePort c key value
  | .appName => (c.setApplicationName value, [])
  | .loginTimeoutSec => handleLoginTimeoutSec c key value
  | .readPreference => handleReadPreference c value
  | .replicaSet => (c.setReplicaSet value, [])
  | .retryReads => handleBool Configuration.setRetryReads c key value
  | .tls => handleBool Configuration.setTls c key value
  | .tlsAllowInvalidHostnames => handleBool Configuration.setTlsAllowInvalidHostnames c key value
  | .tlsCaFile => (c.setTlsCaFile value, [])
  | .sshEnable => handleBool Configuration.setSshEnable c key value
  | .sshUser => (c.setSshUser value, [])
  | .sshHost => (c.setSshHost value, [])
  | .sshPrivateKeyFile => (c.setSshPrivateKeyFile value, [])
  | .sshPrivateKeyPassphrase => (c.setSshPrivateKeyPassphrase value, [])
  | .sshStrictHostKeyChecking => handleBool Configuration.setSshStrictHostKeyChecking c key value
  | .sshKnownHostsFile => (c.setSshKnownHostsFile value, [])
  | .logLevel => handleLogLevel c value
  | .logPath => (c.setLogPath value, [])
  | .scanMethod => handleScanMethod c value
  | .scanLimit => handleScanLimit c key value
  | .schemaName => (c.setSchemaName value, [])
  | .refreshSchema => handleBool Configuration.setRefreshSchema c key value
  | .defaultFetchSize => handleDefaultFetchSize c key value
  | .driver => (c.setDriver value, [])
  | .user => handleUser c value
  | .password => handlePassword c value

/-- `ConnectionStringParser::HandleAttributePair`. -/
def handleAttributePair (c : Configuration H) (key value : Str) : Parsed H :=
  match attrOfKey (toLower key) with
  | some a => handleAttr c key value a
  | none => rejected c (ascii "Unknown attribute: '" ++ key ++ ascii "'. Ignoring.")

/-! ## The text -/

/-- `value.substr(1, value.size() - 2)` where the value is in braces. -/
def stripBraces (value : Str) : Str :=
  if value.head? = some 123 ∧ value.getLast? = some 125 then (value.drop 1).take (value.length - 2)
  else value

/-- One round of the loop of `ParseConnectionString` on the text left: the
pair to handle, if any, and the text of the next round, if there is one. -/
def parseRound (delimiter : UInt8) (connectStr : Str) : Option (Str × Str) × Option Str :=
  let attrBegin := match Separated.rfind delimiter connectStr with
    | none => 0
    | some pos => pos + 1
  let attrEqPos := (Separated.rfind 61 connectStr).getD 0
  let pair :=
    if attrBegin < attrEqPos then
      let key := stripSurroundingWhitespaces ((connectStr.take attrEqPos).drop attrBegin)
      let value := stripSurroundingWhitespaces (connectStr.drop (attrEqPos + 1))
      some (key, stripBraces value)
    else none
  (pair, if attrBegin = 0 then none else some (connectStr.take (attrBegin - 1)))

/-- Handle the pair of a round, if there is one. -/
def handlePair (p : Parsed H) : Option (Str × Str) → Parsed H
  | none => p
  | some (key, value) =>
    let (c, diag) := handleAttributePair p.1 key value
    (c, p.2 ++ diag)

/-- The loop; every round shortens the text, so its length is enough fuel. -/
def parseLoop (delimiter : UInt8) : Nat → Parsed H → Str → Parsed H
  | 0, p, _ => p
  | _ + 1, p, [] => p
  | fuel + 1, p, connectStr =>
    let (pair, rest) := parseRound delimiter connectStr
    match rest with
    | none => handlePair p pair
    | some rest => parseLoop delimiter fuel (handlePair p pair) rest

/-- `ParseConnectionString(str, len, delimiter, diag)`: trailing NULs go
first. -/
def parse (delimiter : UInt8) (c : Configuration H) (str : Str) : Parsed H :=
  let connectStr := str.rdropWhile (· == 0)
  parseLoop delimiter connectStr.length (c, []) connectStr

/-- `ParseConnectionString(str, diag)`. -/
def parseConnectionString (c : Configuration H) (str : Str) : Parsed H := parse 59 c str

end ConnectionStringParser

end DocumentDbOdbc
