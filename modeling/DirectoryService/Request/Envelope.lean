import DirectoryService.Operation
import DirectoryService.Request.Field

/-!
# Envelopes

Every message is an envelope: a number that the answers repeat, and one operation.
-/

namespace DirectoryService

/-- A message from a client. -/
structure Envelope where
  /-- The number of the message. -/
  messageId : Int
  /-- The operation that it asks for. -/
  operation : Ber.Packet

namespace Envelope

/-- The envelope that a packet is. -/
def ofPacket (packet : Ber.Packet) : Except Request.Fault Envelope := do
  let messageId ← Request.integer .messageId (← Request.require packet 0 .messageId)
  let operation ← Request.require packet 1 .operation
  return ⟨messageId, operation⟩

/-- Whether the operation is one that handlers answer: constructed, of the application class. -/
def isRoutable (envelope : Envelope) : Bool :=
  envelope.operation.tagClass == .application && envelope.operation.isConstructed

end Envelope

end DirectoryService
