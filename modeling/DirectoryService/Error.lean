import DirectoryService.Credential.Password
import DirectoryService.Ber.Fault
import DirectoryService.Entry.Basic
import DirectoryService.Request.Field
import DirectoryService.Schema.Catalog

/-!
# Errors of the service

Whatever goes wrong while the service answers is one of these errors. Each has a kind, by which
errors are counted, and a wording.
-/

namespace DirectoryService

/-- The kinds of errors. -/
inductive ErrorKind where
  /-- Stored data cannot be reached or read. -/
  | storage
  /-- A message cannot be read. -/
  | decode
  /-- The other side does not speak the protocol. -/
  | wrongProtocol
  /-- A password cannot be compared. -/
  | credential
  /-- Definitions are no schema. -/
  | schema
  /-- A record is refused. -/
  | invalidInput
  /-- A transmission failed. -/
  | io
  /-- Anything else. -/
  | internal
deriving DecidableEq

/-- The label of a kind. -/
def ErrorKind.label : ErrorKind → String
  | .storage => "storage"
  | .decode => "decode"
  | .wrongProtocol => "wrong_protocol"
  | .credential => "credential"
  | .schema => "schema"
  | .invalidInput => "invalid_input"
  | .io => "io"
  | .internal => "internal"

/-- An error. -/
inductive Error where
  /-- A store cannot answer. -/
  | storage (text : String)
  /-- A database refuses a command. -/
  | database (text : String)
  /-- No connection to a database is to be had. -/
  | pool (text : String)
  /-- A stored record is not what it should be. -/
  | serialization
  /-- A stream yields no packet. -/
  | packet (cause : Ber.Fault)
  /-- A packet is no request. -/
  | request (cause : Request.Fault)
  /-- A packet has no contents at all. -/
  | wrongProtocol
  /-- A password cannot be compared. -/
  | credential (cause : Password.Fault)
  /-- Definitions are no schema. -/
  | schema (cause : Schema.Fault)
  /-- A record is refused. -/
  | rejected (cause : Rejection)
  /-- A transmission failed. -/
  | io (failure : IoFailure)
  /-- Anything else. -/
  | internal (text : String)
deriving DecidableEq

namespace Error

/-- The kind of an error. -/
def kind : Error → ErrorKind
  | .storage _ => .storage
  | .database _ => .storage
  | .pool _ => .storage
  | .serialization => .storage
  | .packet _ => .decode
  | .request _ => .decode
  | .wrongProtocol => .wrongProtocol
  | .credential _ => .credential
  | .schema _ => .schema
  | .rejected _ => .invalidInput
  | .io _ => .io
  | .internal _ => .internal

/-- The wording of an error. -/
def message : Error → String
  | .storage text => "Storage error: " ++ text
  | .database text => "Redis error: " ++ text
  | .pool text => "Connection pool error: " ++ text
  | .serialization => "Serialization error"
  | .packet cause => "BER error: " ++ cause.message
  | .request cause => "Malformed request: " ++ cause.message
  | .wrongProtocol => "Error decoding BER packet: wrong port?"
  | .credential cause => "Credential verification error: " ++ cause.message
  | .schema cause => "Schema error: " ++ cause.message
  | .rejected cause => "Invalid input: " ++ cause.message
  | .io failure => "I/O error: " ++ failure.text
  | .internal text => "Internal error: " ++ text

end Error

end DirectoryService
