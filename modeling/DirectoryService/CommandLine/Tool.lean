import DirectoryService.CommandLine.Reading
import DirectoryService.Credential.Principal
import DirectoryService.Error
import DirectoryService.Files
import DirectoryService.Json.Printer
import DirectoryService.Schema.Part
import DirectoryService.Schema.Standard
import DirectoryService.Text.Quoted

/-!
# The provisioning tool

The tool prints the standard definitions, makes the record of a principal, compares passwords with
stored ones, and talks to a running service or to a database. Options that choose a running service
stand before the command.
-/

namespace DirectoryService.CommandLine

/-- The options of the tool. -/
inductive Choice where
  /-- The address of the service. -/
  | url
  /-- The token of the service. -/
  | token
  /-- The file with the certificate that the service is checked with. -/
  | certificate
  /-- A user. -/
  | username
  /-- A password. -/
  | password
  /-- A stored hash. -/
  | hash
  /-- A stored salt. -/
  | salt
  /-- The address of a database. -/
  | database
  /-- The password of the administrator. -/
  | administrator

/-- What an option of the tool looks like. -/
def Choice.flag : Choice → Flag
  | .url =>
    { long := "url", short := some 'u', placeholder := some "URL"
      purpose := "API base URL (defaults to http://localhost:8080)"
      setting := some "LDAP_DIRECTORY_URL", standard := some "http://localhost:8080" }
  | .token =>
    { long := "token", short := some 't', placeholder := some "TOKEN"
      purpose := "Bearer token for the admin routes", setting := some "LDAP_DIRECTORY_TOKEN" }
  | .certificate =>
    { long := "ca-cert", placeholder := some "CA_CERT"
      purpose := "Path to CA certificate file for TLS verification"
      setting := some "LDAP_DIRECTORY_CA_CERT", takesEmpty := false }
  | .username =>
    { long := "username", short := some 'u', placeholder := some "USERNAME", isRequired := true }
  | .password =>
    { long := "password", short := some 'p', placeholder := some "PASSWORD", isRequired := true }
  | .hash => { long := "hash", placeholder := some "HASH", isRequired := true }
  | .salt => { long := "salt", placeholder := some "SALT", isRequired := true }
  | .database =>
    { long := "redis-url", placeholder := some "REDIS_URL", setting := some "REDIS_URL"
      standard := some "redis://127.0.0.1:6379" }
  | .administrator =>
    { long := "admin-password", placeholder := some "ADMIN_PASSWORD"
      setting := some "LDAP_SEED_ADMIN_PASSWORD", standard := some "admin" }

/-- The value of an option, which is empty only if nothing gives one. -/
def Reading.text (reading : Reading) (choice : Choice) : String :=
  (reading.value choice.flag).getD ""

/-- The operand that names a part of the definitions. -/
def partOperand : Operand := ⟨"<SECTION>", "", Catalog.Part.all.map (·.name)⟩

/-- The commands. -/
inductive Verb where
  /-- Makes the record of a principal. -/
  | hashPassword
  /-- Compares a password with a stored one. -/
  | verifyPassword
  /-- Prints a part of the definitions. -/
  | schema
  /-- Fills an empty database. -/
  | seed
  /-- Asks a service how it is. -/
  | health
  /-- Lets a service load its definitions anew. -/
  | reloadSchema

namespace Verb

/-- All commands. -/
def all : List Verb := [.hashPassword, .verifyPassword, .schema, .seed, .health, .reloadSchema]

/-- The options of a command. -/
def choices : Verb → List Choice
  | .hashPassword => [.username, .password]
  | .verifyPassword => [.password, .hash, .salt]
  | .seed => [.database, .administrator]
  | _ => []

/-- The name of a command. -/
def name : Verb → String
  | .hashPassword => "hash-password"
  | .verifyPassword => "verify-password"
  | .schema => "schema"
  | .seed => "seed-redis"
  | .health => "health"
  | .reloadSchema => "reload-schema"

/-- What a command is for. -/
def purpose : Verb → String
  | .hashPassword => "Print a principal record with a fresh hash and salt"
  | .verifyPassword => "Check a password against a stored hash and salt"
  | .schema => "Print one section of the standard schema, one description per line"
  | .seed => "Provision a Redis store with the standard schema and example tree"
  | .health => "Query the service health endpoint"
  | .reloadSchema => "Ask the running service to reload its schema from storage"

/-- The operand of a command. -/
def operand : Verb → Option Operand
  | .schema => some partOperand
  | _ => none

/-- What a command looks like. -/
def subcommand (verb : Verb) : Subcommand :=
  ⟨verb.name, verb.purpose, verb.choices.map Choice.flag ++ [Flag.help], verb.operand⟩

/-- The command of a name. -/
def ofName? (text : String) : Option Verb := all.find? (·.name == text)

theorem ofName?_name (verb : Verb) : ofName? verb.name = some verb := by
  cases verb <;> rfl

end Verb

/-- The command that prints the help of others. -/
def helpSubcommand : Subcommand :=
  ⟨"help", "Print this message or the help of the given subcommand(s)", [],
    some ⟨"[COMMAND]...", "Print help for the subcommand(s)", []⟩⟩

/-- The form of all command lines of the tool. -/
def toolForm : Form :=
  { words := ["ldap-directory-cli"]
    purpose := "Provisioning and admin tool for the LDAP directory service"
    flags := [Choice.url, .token, .certificate].map Choice.flag ++ [Flag.help]
    operand := none
    subcommands := Verb.all.map Verb.subcommand ++ [helpSubcommand] }

/-- A command with what was read of its own arguments and of those before it. -/
structure Invocation where
  /-- The command. -/
  verb : Verb
  /-- The arguments behind the command. -/
  own : Reading
  /-- The arguments before the command. -/
  before : Reading

/-- Reads the arguments behind a command, and then completes those before it. -/
def readCommand (environment : String → Option String) (before : Reading) (name : String)
    (arguments : List String) : Except Halt Invocation := do
  let some form := toolForm.subcommand? name | throw (toolForm.helpOn [name])
  let some verb := Verb.ofName? name | throw (toolForm.helpOn arguments)
  let own ← form.readAll environment arguments
  return ⟨verb, own, ← toolForm.complete environment before⟩

/-- Reads all arguments. -/
def read (environment : String → Option String) (arguments : List String) :
    Except Halt Invocation := do
  match ← toolForm.scan {} arguments with
  | (before, some (name, rest)) => readCommand environment before name rest
  | (before, none) =>
    let reading ← toolForm.complete environment before
    if reading.options.isEmpty then throw (.nothingGiven toolForm)
    throw (.fault (toolForm.fault .noCommand))

/-- What the tool needs of the world around it. -/
structure Surroundings (m : Type → Type) where
  /-- The settings of the environment. -/
  environment : String → Option String
  /-- Reads a file. -/
  readFile : String → m (Except FileFault (List UInt8))
  /-- A salt that has not been used before. -/
  freshSalt : m (List UInt8)
  /-- The present moment. -/
  now : m Timestamp

/-- What the tool leaves behind. -/
structure Outcome where
  /-- The status. -/
  status : UInt8
  /-- The lines that are printed. -/
  lines : List String
  /-- The report on what went wrong. -/
  report : String

namespace Outcome

/-- The outcome of a command that went well. -/
def done (lines : List String) : Outcome := ⟨0, lines, ""⟩

/-- The lines that tell the causes of a failure, which are numbered if there are several. -/
def causeLines : List String → List String
  | [] => []
  | [cause] => ["", "Caused by:", "    " ++ cause]
  | causes =>
    "" :: "Caused by:" :: (List.range causes.length).zipWith (fun number cause =>
      "    " ++ toString number ++ ": " ++ cause) causes

/-- The outcome of a command that failed for some causes, each of which is due to the next. -/
def failed (text : String) (causes : List String) : Outcome :=
  ⟨1, [], String.intercalate "\n" (("Error: " ++ text) :: causeLines causes)⟩

/-- The outcome of arguments that lead to no command. -/
def ofHalt (environment : String → Option String) : Halt → Outcome
  | .help form => done (form.help environment)
  | .nothingGiven form => ⟨2, [], String.intercalate "\n" (form.help environment)⟩
  | .fault fault => ⟨2, [], fault.message⟩

end Outcome

/-- The lines of a JSON object, with a field on each. -/
def objectLines : Json → List String
  | .object fields =>
    let shown := fields.map fun (name, value) =>
      "  " ++ (Json.text name).render ++ ": " ++ value.render
    let commas := (shown.dropLast.map (· ++ ",")) ++ shown.getLast?.toList
    "\x7b" :: commas ++ ["\x7d"]
  | value => [value.render]

/-- Whether an address starts with the name of a way to reach it. -/
def hasScheme (address : String) : Bool :=
  let chars := address.toList.dropWhile (· ≤ ' ')
  (chars.head?.any Char.isAlpha) &&
    (chars.dropWhile fun c => c.isAlphanum || c = '+' || c = '-' || c = '.').head? == some ':'

/-- Whether a token can be sent with a request. -/
def isSendable (token : String) : Bool :=
  token.toList.all fun c => c = '\t' || (' ' ≤ c && c ≠ '\x7f')

/-- Sends a request to the service. No service can be reached from here. -/
def send {m : Type → Type} [Monad m] (surroundings : Surroundings m) (before : Reading)
    (token : Option String) : m Outcome := do
  let unsent (causes : List String) := Outcome.failed "Failed to send request" causes
  let causes :=
    if !hasScheme (before.text .url) then ["builder error", "relative URL without a base"]
    else if !token.all isSendable then ["builder error", "failed to parse header value"]
    else []
  match before.value Choice.certificate.flag with
  | none => return unsent causes
  | some path =>
    match ← surroundings.readFile path with
    | .ok _ => return unsent causes
    | .error fault =>
      return .failed ("Failed to read CA certificate from " ++ Quoted.quote path) [fault.message]

/-- The outcome of comparing a password with a stored one. -/
def verification (password hash salt : String) : Outcome :=
  match Password.verify (Utf8.encode password) hash salt with
  | .ok true => .done ["✓ Password matches"]
  | .ok false => .failed "Password does not match" []
  | .error cause => .failed (Error.credential cause).message []

/-- Runs a command. No database can be reached from here. -/
def Invocation.run {m : Type → Type} [Monad m] (surroundings : Surroundings m)
    (invocation : Invocation) : m Outcome :=
  let own := invocation.own
  match invocation.verb with
  | .hashPassword => do
    let salt ← surroundings.freshSalt
    let principal := Principal.withPassword (own.text .username)
      (Utf8.encode (own.text .password)) salt (← surroundings.now)
    return .done (objectLines principal.toJson)
  | .verifyPassword => pure (verification (own.text .password) (own.text .hash) (own.text .salt))
  | .schema =>
    pure (.done ((own.operand.bind Catalog.Part.ofName?).elim [] Catalog.standard.describe))
  | .seed => pure (.failed "Failed to connect to Redis" [])
  | .health => send surroundings invocation.before none
  | .reloadSchema =>
    match invocation.before.value Choice.token.flag with
    | none => pure (.failed "Token required for this operation" [])
    | some token => send surroundings invocation.before (some token)

/-- What the tool does with arguments. -/
def run {m : Type → Type} [Monad m] (surroundings : Surroundings m) (arguments : List String) :
    m Outcome :=
  match read surroundings.environment arguments with
  | .ok invocation => invocation.run surroundings
  | .error halt => pure (.ofHalt surroundings.environment halt)

end DirectoryService.CommandLine
