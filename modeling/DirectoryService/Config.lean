import DirectoryService.Text.Quoted

/-!
# Configuration

The settings of a service are named texts. A setting that is not there has a value of its own, and
so has one that cannot be read; the latter is remembered, and no service starts with it.
-/

namespace DirectoryService

/-- Where a service keeps its directory. -/
inductive Backend where
  /-- In memory. -/
  | memory
  /-- In a key/value database. -/
  | keyValue
deriving DecidableEq

/-- Why the text of a setting is no value of it. -/
inductive SettingFault where
  /-- No backend has this name. -/
  | unknownBackend (name : String)
  /-- A number has no digits. -/
  | noDigits
  /-- A number holds something else than digits. -/
  | foreignDigit
  /-- A number is beyond the last port. -/
  | numberTooLarge
  /-- A truth value is neither `true` nor `false`. -/
  | noTruthValue
deriving DecidableEq

/-- The wording of a fault. -/
def SettingFault.message : SettingFault → String
  | .unknownBackend name => "unknown storage backend " ++ Quoted.quote name
  | .noDigits => "cannot parse integer from empty string"
  | .foreignDigit => "invalid digit found in string"
  | .numberTooLarge => "number too large to fit in target type"
  | .noTruthValue => "provided string was not `true` or `false`"

/-- A setting whose text cannot be read. -/
structure InvalidSetting where
  /-- The name of the setting. -/
  name : String
  /-- Its text. -/
  text : String
  /-- What is wrong with the text. -/
  cause : SettingFault
deriving DecidableEq

/-- The wording of an invalid setting. -/
def InvalidSetting.message (setting : InvalidSetting) : String :=
  "Invalid " ++ setting.name ++ "=" ++ Quoted.quote setting.text ++ ": " ++ setting.cause.message

namespace Setting

/-- Reads a backend, in letters of either case. -/
def backend (text : String) : Except SettingFault Backend :=
  let name := Ascii.lowercase text
  if name = "memory" then .ok .memory
  else if name = "redis" then .ok .keyValue
  else .error (.unknownBackend name)

/-- Goes on reading a port number after some digits of it. The first character that cannot be taken
decides about the fault. -/
def portDigits (value : Nat) : List Char → Except SettingFault UInt16
  | [] => .ok (UInt16.ofNat value)
  | c :: rest =>
    if '0' ≤ c ∧ c ≤ '9' then
      let next := 10 * value + (c.toNat - 48)
      if next < 65536 then portDigits next rest else .error .numberTooLarge
    else .error .foreignDigit

/-- Reads a port number; a plus sign may stand before it. -/
def port (text : String) : Except SettingFault UInt16 :=
  match text.toList with
  | [] => .error .noDigits
  | ['+'] => .error .foreignDigit
  | '+' :: digits => portDigits 0 digits
  | digits => portDigits 0 digits

/-- Reads a truth value. -/
def truth (text : String) : Except SettingFault Bool :=
  if text = "true" then .ok true
  else if text = "false" then .ok false
  else .error .noTruthValue

/-- The value of a setting, together with the setting itself if it cannot be read. -/
def value {α : Type} (lookup : String → Option String) (name : String) (ifMissing : α)
    (read : String → Except SettingFault α) : α × List InvalidSetting :=
  match lookup name with
  | none => (ifMissing, [])
  | some text =>
    match read text with
    | .ok content => (content, [])
    | .error cause => (ifMissing, [⟨name, text, cause⟩])

end Setting

/-- The configuration of a service. -/
structure Config where
  /-- Where the directory is kept. -/
  backend : Backend
  /-- The host of the database. -/
  databaseHost : String
  /-- The port of the database. -/
  databasePort : UInt16
  /-- The name by which the service logs in to the database. -/
  databaseUser : Option String
  /-- The password by which the service logs in to the database. -/
  databasePassword : Option String
  /-- The port of the administrative interface. -/
  apiPort : UInt16
  /-- The token that administrative requests have to bear. -/
  apiToken : Option String
  /-- The port for plain connections. -/
  plainPort : UInt16
  /-- The port for secured connections. -/
  securePort : UInt16
  /-- The file that holds the certificates. -/
  certificatePath : Option String
  /-- The file that holds the private key. -/
  keyPath : Option String
  /-- Whether secured connections are offered. -/
  offersSecure : Bool
  /-- The password of the first principal. -/
  administratorPassword : String
  /-- Whether every packet is written to the log. -/
  logsPackets : Bool
  /-- The settings that cannot be read, in the order in which they are looked up. -/
  invalid : List InvalidSetting

/-- Why a service does not start with a configuration. -/
inductive ConfigFault where
  /-- A setting cannot be read. -/
  | invalidSetting (setting : InvalidSetting)
  /-- The port of a setting is zero. -/
  | zeroPort (name : String)
  /-- Plain and secured connections have the same port. -/
  | samePorts
  /-- There is no certificate file. -/
  | certificateNotFound (path : String)
  /-- No certificate file is named. -/
  | certificateNotSet
  /-- There is no key file. -/
  | keyNotFound (path : String)
  /-- No key file is named. -/
  | keyNotSet
  /-- The first principal has no password. -/
  | emptyPassword
deriving DecidableEq

/-- The wording of a fault. -/
def ConfigFault.message : ConfigFault → String
  | .invalidSetting setting => setting.message
  | .zeroPort name => name ++ " cannot be 0"
  | .samePorts => "LDAPS_PORT must differ from LDAP_PORT"
  | .certificateNotFound path => "TLS certificate file not found: " ++ path
  | .certificateNotSet => "ENABLE_TLS is true but TLS_CERT_PATH is not set"
  | .keyNotFound path => "TLS key file not found: " ++ path
  | .keyNotSet => "ENABLE_TLS is true but TLS_KEY_PATH is not set"
  | .emptyPassword => "LDAP_SEED_ADMIN_PASSWORD cannot be empty"

namespace Config

/-- The configuration that named settings make up. -/
def ofSettings (lookup : String → Option String) : Config :=
  let (backend, noBackend) := Setting.value lookup "STORAGE_BACKEND" .memory Setting.backend
  let (databasePort, noDatabasePort) := Setting.value lookup "REDIS_PORT" 6379 Setting.port
  let (apiPort, noApiPort) := Setting.value lookup "API_PORT" 8080 Setting.port
  let (plainPort, noPlainPort) := Setting.value lookup "LDAP_PORT" 3389 Setting.port
  let (securePort, noSecurePort) := Setting.value lookup "LDAPS_PORT" 3636 Setting.port
  let (offersSecure, noSecure) := Setting.value lookup "ENABLE_TLS" false Setting.truth
  let (logsPackets, noLog) := Setting.value lookup "LDAP_LOG_PACKETS" false Setting.truth
  { backend, databasePort, apiPort, plainPort, securePort, offersSecure, logsPackets
    databaseHost := (lookup "REDIS_HOST").getD "127.0.0.1"
    databaseUser := lookup "REDIS_USERNAME"
    databasePassword := lookup "REDIS_PASSWORD"
    apiToken := (lookup "API_BEARER_TOKEN").filter (· ≠ "")
    certificatePath := lookup "TLS_CERT_PATH"
    keyPath := lookup "TLS_KEY_PATH"
    administratorPassword := (lookup "LDAP_SEED_ADMIN_PASSWORD").getD "admin"
    invalid := noBackend ++ noDatabasePort ++ noApiPort ++ noPlainPort ++ noSecurePort ++
      noSecure ++ noLog }

/-- The address on which a service listens at a port. -/
def address (port : UInt16) : String := "0.0.0.0:" ++ toString port.toNat

/-- What names the user in the address of the database. -/
def databaseLogin (config : Config) : String :=
  match config.databaseUser, config.databasePassword with
  | some user, some password => user ++ ":" ++ password ++ "@"
  | some user, none => user ++ "@"
  | none, some password => ":" ++ password ++ "@"
  | none, none => ""

/-- The address of the database. -/
def databaseUrl (config : Config) : String :=
  "redis://" ++ config.databaseLogin ++ config.databaseHost ++ ":" ++
    toString config.databasePort.toNat

/-- Checks that the files for secured connections are named and exist. -/
def checkFiles (config : Config) (fileExists : String → Bool) : Except ConfigFault Unit := do
  match config.certificatePath with
  | none => throw .certificateNotSet
  | some path => if !fileExists path then throw (.certificateNotFound path)
  match config.keyPath with
  | none => throw .keyNotSet
  | some path => if !fileExists path then throw (.keyNotFound path)

/-- Checks that a service can start. -/
def validate (config : Config) (fileExists : String → Bool) : Except ConfigFault Unit := do
  if let some setting := config.invalid.head? then throw (.invalidSetting setting)
  if config.backend = .keyValue ∧ config.databasePort = 0 then throw (.zeroPort "REDIS_PORT")
  if config.apiPort = 0 then throw (.zeroPort "API_PORT")
  if config.plainPort = 0 then throw (.zeroPort "LDAP_PORT")
  if config.offersSecure then
    if config.securePort = 0 then throw (.zeroPort "LDAPS_PORT")
    if config.securePort = config.plainPort then throw .samePorts
    config.checkFiles fileExists
  if config.administratorPassword = "" then throw .emptyPassword

end Config

end DirectoryService
