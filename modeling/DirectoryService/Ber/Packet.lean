/-!
# Packets

A packet is one element of the Basic Encoding Rules: an identifier of class and tag number, and
either octets (primitive) or further packets (constructed). The description names an element for a
reader of a dump; it is never transmitted.
-/

namespace DirectoryService.Ber

/-- The class of an identifier. -/
inductive TagClass where
  /-- Types of the encoding rules themselves. -/
  | universal
  /-- Types of one application, here the operations of the protocol. -/
  | application
  /-- Alternatives and components of an enclosing type. -/
  | context
  /-- Types by private agreement. -/
  | privateUse
deriving DecidableEq

/-- The name of a class. -/
def TagClass.name : TagClass → String
  | .universal => "Universal"
  | .application => "Application"
  | .context => "Context"
  | .privateUse => "Private"

/-- One element with everything below it. -/
inductive Packet where
  /-- An element that holds octets. -/
  | primitive (tagClass : TagClass) (tag : UInt32) (value : List UInt8) (description : String)
  /-- An element that holds elements. -/
  | constructed (tagClass : TagClass) (tag : UInt32) (children : List Packet)
      (description : String)

namespace Packet

instance : Inhabited Packet := ⟨.primitive .universal 5 [] ""⟩

/-- The class of the identifier. -/
def tagClass : Packet → TagClass
  | .primitive tagClass _ _ _ => tagClass
  | .constructed tagClass _ _ _ => tagClass

/-- The tag number of the identifier. -/
def tag : Packet → UInt32
  | .primitive _ tag _ _ => tag
  | .constructed _ tag _ _ => tag

/-- Whether the packet holds packets. -/
def isConstructed : Packet → Bool
  | .primitive .. => false
  | .constructed .. => true

/-- The octets of a primitive packet; a constructed packet has none. -/
def value : Packet → List UInt8
  | .primitive _ _ value _ => value
  | .constructed .. => []

/-- The packets of a constructed packet; a primitive packet has none. -/
def children : Packet → List Packet
  | .primitive .. => []
  | .constructed _ _ children _ => children

/-- The description of the packet. -/
def description : Packet → String
  | .primitive _ _ _ description => description
  | .constructed _ _ _ description => description

/-- The child at a place, counted from zero. -/
def child? (packet : Packet) (index : Nat) : Option Packet := packet.children[index]?

/-- Whether the packet has exactly this class, form and tag number. -/
def hasShape (packet : Packet) (tagClass : TagClass) (constructed : Bool) (tag : UInt32) : Bool :=
  packet.tagClass == tagClass && packet.isConstructed == constructed && packet.tag == tag

/-- The packet with another one as its last child. A primitive packet takes no children. -/
def push (packet added : Packet) : Packet :=
  match packet with
  | .primitive .. => packet
  | .constructed tagClass tag children description =>
    .constructed tagClass tag (children ++ [added]) description

mutual

/-- The packet with every description removed, which is what a transmission keeps of it. -/
def undescribed : Packet → Packet
  | .primitive tagClass tag value _ => .primitive tagClass tag value ""
  | .constructed tagClass tag children _ => .constructed tagClass tag (undescribedAll children) ""

/-- Packets with every description removed. -/
def undescribedAll : List Packet → List Packet
  | [] => []
  | packet :: rest => undescribed packet :: undescribedAll rest

end

mutual

/-- The number of levels below a packet. -/
def depth : Packet → Nat
  | .primitive .. => 0
  | .constructed _ _ children _ => depthAll children

/-- The number of levels that packets add to the packet that holds them. -/
def depthAll : List Packet → Nat
  | [] => 0
  | packet :: rest => max (depth packet + 1) (depthAll rest)

end

end Packet

/-- Tag number of a truth value. -/
def booleanTag : UInt32 := 1

/-- Tag number of an integer. -/
def integerTag : UInt32 := 2

/-- Tag number of an octet string. -/
def octetStringTag : UInt32 := 4

/-- Tag number of an enumerated value. -/
def enumeratedTag : UInt32 := 10

/-- Tag number of a sequence. -/
def sequenceTag : UInt32 := 16

/-- Tag number of a set. -/
def setTag : UInt32 := 17

end DirectoryService.Ber
