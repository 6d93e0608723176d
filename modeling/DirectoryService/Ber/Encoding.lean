import DirectoryService.Ber.Packet

/-!
# Encoding packets

Identifier, length and contents follow each other. Tag numbers from 31 on take further octets of
seven bits, lengths from 128 on take the octets of the number after a count of them; both are as
short as they can be.
-/

namespace DirectoryService.Ber

/-- The two bits of a class, at the top of the identifier. -/
def TagClass.bits : TagClass → UInt8
  | .universal => 0x00
  | .application => 0x40
  | .context => 0x80
  | .privateUse => 0xC0

/-- The groups of seven bits of a number, each marked as having a successor. No group is written for
zero. -/
def leadingGroups (number : Nat) : List UInt8 :=
  if number = 0 then []
  else leadingGroups (number / 128) ++ [UInt8.ofNat (128 + number % 128)]

/-- A number in groups of seven bits, the last of which is not marked. -/
def encodeTagNumber (number : Nat) : List UInt8 :=
  leadingGroups (number / 128) ++ [UInt8.ofNat (number % 128)]

/-- The octets of a number, most significant first. No octet is written for zero. -/
def bigEndian (number : Nat) : List UInt8 :=
  if number = 0 then []
  else bigEndian (number / 256) ++ [UInt8.ofNat (number % 256)]

/-- The shortest form of a length. -/
def encodeLength (length : Nat) : List UInt8 :=
  if length < 128 then [UInt8.ofNat length]
  else UInt8.ofNat (128 + (bigEndian length).length) :: bigEndian length

/-- The identifier octets of a class, form and tag number. -/
def encodeIdentifier (tagClass : TagClass) (constructed : Bool) (tag : UInt32) : List UInt8 :=
  let leading := tagClass.bits + (if constructed then 0x20 else 0x00)
  if tag < 31 then [leading + tag.toUInt8]
  else (leading + 0x1F) :: encodeTagNumber tag.toNat

namespace Packet

mutual

/-- The octets of a packet. -/
def encode : Packet → List UInt8
  | .primitive tagClass tag value _ =>
    encodeIdentifier tagClass false tag ++ encodeLength value.length ++ value
  | .constructed tagClass tag children _ =>
    let contents := encodeAll children
    encodeIdentifier tagClass true tag ++ encodeLength contents.length ++ contents

/-- The octets of packets one after the other. -/
def encodeAll : List Packet → List UInt8
  | [] => []
  | packet :: rest => encode packet ++ encodeAll rest

end

/-- The octets behind the header of a packet. -/
def contents : Packet → List UInt8
  | .primitive _ _ value _ => value
  | .constructed _ _ children _ => encodeAll children

end Packet

end DirectoryService.Ber
