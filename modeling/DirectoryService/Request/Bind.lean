import DirectoryService.Request.Field

/-!
# Bind requests
-/

namespace DirectoryService

/-- How a user authenticates. -/
inductive Authentication where
  /-- By the octets of a password. -/
  | simple (password : List UInt8)
  /-- By another choice, told by its tag number. -/
  | unsupported (tag : UInt32)
deriving DecidableEq

/-- A request to bind. -/
structure BindRequest where
  /-- The version of the protocol. -/
  version : Int
  /-- The user. -/
  name : String
  /-- How the user authenticates. -/
  authentication : Authentication
deriving DecidableEq

namespace BindRequest

/-- The authentication choice that a packet is: primitive and of tag number zero for a password. -/
def readAuthentication (packet : Ber.Packet) : Except Request.Fault Authentication :=
  if packet.tagClass ≠ .context then .error (.unexpectedChoice packet.tagClass)
  else if packet.tag = 0 ∧ packet.isConstructed = false then .ok (.simple packet.value)
  else .ok (.unsupported packet.tag)

/-- The bind request that an operation is. -/
def ofPacket (operation : Ber.Packet) : Except Request.Fault BindRequest := do
  let version ← Request.integer .version (← Request.require operation 0 .version)
  let name ← Request.text .name (← Request.require operation 1 .name)
  let authentication ←
    readAuthentication (← Request.require operation 2 .authentication)
  return ⟨version, name, authentication⟩

end BindRequest

end DirectoryService
