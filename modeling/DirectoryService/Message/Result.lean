import DirectoryService.Ber.Value
import DirectoryService.Operation

/-!
# Results

Every answer is an envelope with the number of its request. A bind and a search end with a result
code, next to a matched name and a diagnostic text that are always empty here.
-/

namespace DirectoryService

/-- The result codes that are given here. -/
inductive ResultCode where
  /-- The operation succeeded. -/
  | success
  /-- The request asks for something outside the protocol that is spoken. -/
  | protocolError
  /-- There is no entry of the base name. -/
  | noSuchObject
  /-- User or password do not match. -/
  | invalidCredentials
  /-- The operation failed on this side. -/
  | other
deriving DecidableEq

namespace ResultCode

/-- The number of a code. -/
def number : ResultCode → Int
  | .success => 0
  | .protocolError => 2
  | .noSuchObject => 32
  | .invalidCredentials => 49
  | .other => 80

/-- The name of a code. -/
def name : ResultCode → String
  | .success => "success"
  | .protocolError => "protocolError"
  | .noSuchObject => "noSuchObject"
  | .invalidCredentials => "invalidCredentials"
  | .other => "other"

end ResultCode

namespace Message

/-- The answer to the request of a number. -/
def envelope (messageId : Int) (operation : Ber.Packet) : Ber.Packet :=
  .constructed .universal Ber.sequenceTag [.integer messageId "MessageID", operation]
    "LDAP Response"

/-- A result under an application tag number. -/
def result (tag : UInt32) (code : ResultCode) (description : String) : Ber.Packet :=
  .constructed .application tag
    [.enumerated code.number "resultCode", .text "" "matchedDN", .text "" "diagnosticMessage"]
    description

/-- The answer to a bind. -/
def bindResponse (messageId : Int) (code : ResultCode) : Ber.Packet :=
  envelope messageId (result bindResponseTag code "Bind Response")

/-- The end of a search. -/
def searchDone (messageId : Int) (code : ResultCode) : Ber.Packet :=
  envelope messageId (result searchDoneTag code "Search Result Done")

end Message

end DirectoryService
