import DirectoryService.Ber.Integer
import DirectoryService.Ber.Packet

/-!
# Values in packets

Packets of the universal types, and the values that packets are read as. Reading looks at the form
and the contents; whether the identifier is the expected one is the caller's question.
-/

namespace DirectoryService.Ber.Packet

/-- A sequence without elements. -/
def sequence (description : String) : Packet := .constructed .universal sequenceTag [] description

/-- A set without elements. -/
def set (description : String) : Packet := .constructed .universal setTag [] description

/-- An integer. -/
def integer (value : Int) (description : String) : Packet :=
  .primitive .universal integerTag (Integer.encode value) description

/-- A value of an enumeration. -/
def enumerated (value : Int) (description : String) : Packet :=
  .primitive .universal enumeratedTag (Integer.encode value) description

/-- A truth value. -/
def boolean (value : Bool) (description : String) : Packet :=
  .primitive .universal booleanTag [if value then 0xFF else 0x00] description

/-- An octet string. -/
def octets (value : List UInt8) (description : String) : Packet :=
  .primitive .universal octetStringTag value description

/-- An octet string that holds a text. -/
def text (value : String) (description : String) : Packet :=
  octets (Utf8.encode value) description

/-- The packet read as an integer. -/
def toInt (packet : Packet) : Except ValueFault Int :=
  if packet.isConstructed then .error .constructedInteger else Integer.decode packet.value

/-- The packet read as a truth value. -/
def toBool (packet : Packet) : Except ValueFault Bool :=
  match packet with
  | .primitive _ _ [octet] _ => .ok (octet != 0)
  | _ => .error (.booleanWidth packet.value.length)

/-- The packet read as a text. -/
def toText (packet : Packet) : Except ValueFault String :=
  if packet.isConstructed then .error .constructedText
  else (Utf8.decode packet.value).mapError .notText

end DirectoryService.Ber.Packet
