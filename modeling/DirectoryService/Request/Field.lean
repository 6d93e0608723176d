import DirectoryService.Ber.Value
import DirectoryService.Filter.Reader

/-!
# Fields of requests

A request is a packet whose children are its fields. A field has to be there, to have the identifier
of its type, and to hold a value of its type; these are looked at in this order, and the first
fault found is the one that is reported.
-/

namespace DirectoryService.Request

/-- The fields that a request can have. -/
inductive Field where
  /-- The number of a message. -/
  | messageId
  /-- The operation that a message asks for. -/
  | operation
  /-- The version of the protocol. -/
  | version
  /-- The user who binds. -/
  | name
  /-- How the user authenticates. -/
  | authentication
  /-- Where a search starts. -/
  | baseObject
  /-- How far a search goes. -/
  | scope
  /-- What a search does with aliases. -/
  | derefAliases
  /-- How many entries a search may return. -/
  | sizeLimit
  /-- How long a search may take. -/
  | timeLimit
  /-- Whether a search leaves values out. -/
  | typesOnly
  /-- Which entries a search returns. -/
  | filter
  /-- Which attributes a search returns. -/
  | attributes
deriving DecidableEq

/-- The name of a field. -/
def Field.label : Field → String
  | .messageId => "messageID"
  | .operation => "protocolOp"
  | .version => "version"
  | .name => "name"
  | .authentication => "authentication"
  | .baseObject => "baseObject"
  | .scope => "scope"
  | .derefAliases => "derefAliases"
  | .sizeLimit => "sizeLimit"
  | .timeLimit => "timeLimit"
  | .typesOnly => "typesOnly"
  | .filter => "filter"
  | .attributes => "attributes"

/-- Why a packet is no request. -/
inductive Fault where
  /-- A field is not there. -/
  | missing (field : Field)
  /-- A field has another identifier than its type. -/
  | unexpectedIdentifier (field : Field) (found : Ber.TagClass) (constructed : Bool)
      (tag expected : Nat)
  /-- A field does not hold a value of its type. -/
  | unexpectedValue (field : Field) (cause : Ber.ValueFault)
  /-- The authentication choice is not of the context class. -/
  | unexpectedChoice (found : Ber.TagClass)
  /-- There is no scope of this number. -/
  | unknownScope (number : Int)
  /-- There is no treatment of aliases of this number. -/
  | unknownAliasTreatment (number : Int)
  /-- The filter is no filter. -/
  | filter (cause : Filter.Fault)
  /-- A fault in the words of whoever reports it. -/
  | reported (text : String)
deriving DecidableEq

/-- The wording of a fault. -/
def Fault.message : Fault → String
  | .missing field => s!"missing field {field.label}"
  | .unexpectedIdentifier field found constructed tag expected =>
    s!"field {field.label} has class {found.name}, tag {tag} " ++
      s!"(constructed: {constructed}), expected universal tag {expected}"
  | .unexpectedValue field cause =>
    s!"field {field.label}: " ++ (Ber.Fault.unexpectedValue cause).message
  | .unexpectedChoice found =>
    s!"field {Field.authentication.label} has class {found.name}, expected context-specific"
  | .unknownScope number => s!"unknown search scope {number}"
  | .unknownAliasTreatment number => s!"unknown derefAliases {number}"
  | .filter cause => cause.message
  | .reported text => text

/-- The field at a place. -/
def require (request : Ber.Packet) (index : Nat) (field : Field) : Except Fault Ber.Packet :=
  match request.child? index with
  | some packet => .ok packet
  | none => .error (.missing field)

/-- Checks that a field has the universal identifier of its type. -/
def expect (packet : Ber.Packet) (tag : UInt32) (constructed : Bool) (field : Field) :
    Except Fault Unit :=
  if packet.hasShape .universal constructed tag then .ok ()
  else .error (.unexpectedIdentifier field packet.tagClass packet.isConstructed packet.tag.toNat
    tag.toNat)

/-- A field of a primitive universal type. -/
def primitive {α : Type} (tag : UInt32) (read : Ber.Packet → Except Ber.ValueFault α)
    (field : Field) (packet : Ber.Packet) : Except Fault α := do
  expect packet tag false field
  (read packet).mapError (.unexpectedValue field)

/-- An integer field. -/
def integer (field : Field) (packet : Ber.Packet) : Except Fault Int :=
  primitive Ber.integerTag Ber.Packet.toInt field packet

/-- An enumerated field. -/
def enumerated (field : Field) (packet : Ber.Packet) : Except Fault Int :=
  primitive Ber.enumeratedTag Ber.Packet.toInt field packet

/-- A text field. -/
def text (field : Field) (packet : Ber.Packet) : Except Fault String :=
  primitive Ber.octetStringTag Ber.Packet.toText field packet

/-- A truth field. -/
def boolean (field : Field) (packet : Ber.Packet) : Except Fault Bool :=
  primitive Ber.booleanTag Ber.Packet.toBool field packet

end DirectoryService.Request
