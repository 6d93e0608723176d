import DirectoryService.Request.Bind
import DirectoryService.Service.Handler

/-!
# Binding

A user who gives the password of the one principal of that name is let in. Everyone else is told
that the credentials are wrong, and the connection is closed; a store that fails or a stored salt
that cannot be read is an error instead, which is not answered.
-/

namespace DirectoryService.Bind

/-- Compares a password with the one of the only principal of a name. -/
def compare (principals : List Principal) (password : List UInt8) : Except Error ResultCode :=
  match principals with
  | [principal] =>
    match principal.verify password with
    | .error cause => .error (.credential cause)
    | .ok true => .ok .success
    | .ok false => .ok .invalidCredentials
  | _ => .ok .invalidCredentials

/-- Looks up a user and compares the password. -/
def authenticate (store : Store) (username : String) (password : List UInt8) :
    Counted (Except Error ResultCode) :=
  (store.counted .principals (store.principals username)).andThen fun answer =>
    .of (answer.bind (compare · password))

/-- The result of a bind request. -/
def resultOf (store : Store) (request : BindRequest) : Counted (Except Error ResultCode) :=
  match request.authentication with
  | .simple password => authenticate store request.name password
  | .unsupported _ => .of (.ok .protocolError)

/-- The reply to a bind of a result. -/
def replyTo (messageId : Int) (code : ResultCode) : Reply :=
  ⟨[Message.bindResponse messageId code], code != .success⟩

/-- Answers requests to bind. -/
def handler : Handler := fun context messageId operation =>
  match BindRequest.ofPacket operation with
  | .error cause => .of (.error (.request cause))
  | .ok request =>
    (resultOf context.store request).andThen fun result =>
      match result with
      | .error error => .of (.error error)
      | .ok code => ⟨.ok (replyTo messageId code), [.bind code]⟩

end DirectoryService.Bind
