import DirectoryService.Credential.Password
import DirectoryService.Entry.Timestamp
import DirectoryService.Json.Record

/-!
# Principals

A principal can authenticate with a password.
-/

namespace DirectoryService

/-- Someone who can authenticate. -/
structure Principal where
  /-- The name to authenticate with. -/
  username : String
  /-- What is stored of the password. -/
  passwordHash : String
  /-- The salt, as base 64. -/
  passwordSalt : String
  /-- When the principal was created. -/
  created : Timestamp
deriving DecidableEq

namespace Principal

/-- A principal with a password, under a fresh salt. -/
def withPassword (username : String) (password salt : List UInt8) (created : Timestamp) :
    Principal :=
  ⟨username, Password.hash password salt, Base64.encode salt, created⟩

/-- Whether a password is the one of the principal. -/
def verify (principal : Principal) (password : List UInt8) : Except Password.Fault Bool :=
  Password.verify password principal.passwordHash principal.passwordSalt

/-- The JSON value of a principal. -/
def toJson (principal : Principal) : Json :=
  .object
    [("username", .text principal.username), ("password_hash", .text principal.passwordHash),
      ("password_salt", .text principal.passwordSalt),
      ("created", .text principal.created.render)]

/-- The principal of a JSON value. -/
def ofJson? (json : Json) : Option Principal := do
  match ← json.parts? ["username", "password_hash", "password_salt", "created"] 4 with
  | [username, hash, salt, created] =>
    let username ← Json.required Json.text? username
    let hash ← Json.required Json.text? hash
    let salt ← Json.required Json.text? salt
    let created ← Json.required Json.text? created
    return ⟨username, hash, salt, ← Timestamp.parse? created⟩
  | _ => none

end Principal

end DirectoryService
