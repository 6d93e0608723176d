import DirectoryService.Ber.Fault
import DirectoryService.Ber.Packet

/-!
# Decoding packets

Octets are read as one packet that covers all of them. The form of tag numbers and lengths need not
be the shortest one; lengths have to be definite and have at most four octets, and packets may nest
`depthLimit` levels below the outermost one.
-/

namespace DirectoryService.Ber

/-- What stands before the contents of a packet. -/
structure Header where
  /-- The class of the identifier. -/
  tagClass : TagClass
  /-- Whether the contents are packets. -/
  constructed : Bool
  /-- The tag number of the identifier. -/
  tag : UInt32
  /-- The number of octets of the contents. -/
  length : Nat
deriving DecidableEq

/-- The class in the top two bits of an identifier octet. -/
def TagClass.ofOctet (octet : UInt8) : TagClass :=
  if octet < 0x40 then .universal
  else if octet < 0x80 then .application
  else if octet < 0xC0 then .context
  else .privateUse

/-- The number that octets stand for, most significant first. -/
def unsigned (octets : List UInt8) : Nat :=
  octets.foldl (fun sum octet => 256 * sum + octet.toNat) 0

/-- The number in groups of seven bits, added to what the groups before gave, and the octets after
the last group. -/
def readTagNumber (sum : Nat) : List UInt8 → Except PacketFault (Nat × List UInt8)
  | [] => .error .truncatedTag
  | octet :: rest =>
    if 0x100000000 ≤ sum * 128 then .error .tagOverflow
    else
      let number := sum * 128 + octet.toNat % 128
      if octet < 0x80 then .ok (number, rest) else readTagNumber number rest

/-- The tag number that belongs to a leading identifier octet, and the octets after it. -/
def readTag (leading : UInt8) (rest : List UInt8) : Except PacketFault (Nat × List UInt8) :=
  if leading % 32 = 31 then readTagNumber 0 rest else .ok ((leading % 32).toNat, rest)

/-- The length at the front of octets, and the octets after it. -/
def readLength : List UInt8 → Except PacketFault (Nat × List UInt8)
  | [] => .error .truncatedLength
  | first :: rest =>
    if first < 0x80 then .ok (first.toNat, rest)
    else
      let count := first.toNat - 128
      if count = 0 then .error .indefiniteLength
      else if 4 < count then .error (.wideLength count)
      else if (rest.take count).length < count then .error .truncatedLongLength
      else .ok (unsigned (rest.take count), rest.drop count)

/-- The header at the front of octets, and the octets after it. -/
def readHeader : List UInt8 → Except PacketFault (Header × List UInt8)
  | [] => .error .empty
  | leading :: rest => do
    let (tag, rest) ← readTag leading rest
    let (length, rest) ← readLength rest
    let constructed := leading / 32 % 2 == 1
    return (⟨TagClass.ofOctet leading, constructed, UInt32.ofNat tag, length⟩, rest)

/-- The header at the front of octets, its contents, and the octets after those. -/
def readParts (octets : List UInt8) :
    Except PacketFault (Header × List UInt8 × List UInt8) := do
  let (header, rest) ← readHeader octets
  let contents := rest.take header.length
  if contents.length < header.length then throw (.overrun header.length rest.length)
  return (header, contents, rest.drop header.length)

/-- Everything that `one` reads off octets, one after the other, until none are left. Each item
takes an octet at least, so `fuel` items are enough for as many octets. -/
def readAll (one : List UInt8 → Except PacketFault (Packet × List UInt8)) :
    (fuel : Nat) → List UInt8 → Except PacketFault (List Packet)
  | _, [] => .ok []
  | 0, _ :: _ => .ok []
  | fuel + 1, octet :: rest => do
    let (packet, rest) ← one (octet :: rest)
    let packets ← readAll one fuel rest
    return packet :: packets

/-- The packet at the front of octets, which may use up `levels` levels, and the octets after
it. -/
def readPacket : (levels : Nat) → List UInt8 → Except PacketFault (Packet × List UInt8)
  | 0, _ => .error .tooDeep
  | levels + 1, octets => do
    let (header, contents, rest) ← readParts octets
    if header.constructed then
      let children ← readAll (readPacket levels) contents.length contents
      return (.constructed header.tagClass header.tag children "", rest)
    else
      return (.primitive header.tagClass header.tag contents "", rest)

/-- The packet that octets are the encoding of. -/
def Packet.decode (octets : List UInt8) : Except PacketFault Packet := do
  let (packet, rest) ← readPacket (depthLimit + 1) octets
  if rest.isEmpty then return packet
  throw (.trailing rest.length)

end DirectoryService.Ber
