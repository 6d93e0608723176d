/-!
# Elements of a private key

A private key is written as nested elements, each a tag, a length and contents. Only one form of
each length is read, and none beyond two octets.
-/

namespace DirectoryService.Der

/-- Reads something off the front of octets. -/
abbrev Reader := StateT (List UInt8) Option

/-- The tag of an integer. -/
def integerTag : UInt8 := 0x02

/-- The tag of a string of bits. -/
def bitsTag : UInt8 := 0x03

/-- The tag of a string of octets. -/
def octetsTag : UInt8 := 0x04

/-- The tag of a sequence. -/
def sequenceTag : UInt8 := 0x30

/-- What a reader finds in octets that it has to use up. -/
def whole {α : Type} (reader : Reader α) (octets : List UInt8) : Option α :=
  match reader.run octets with
  | some (found, []) => some found
  | _ => none

/-- Reads one octet. -/
def octet : Reader UInt8 := do
  match ← get with
  | first :: rest =>
    set rest
    return first
  | [] => failure

/-- Reads a length in its shortest form. -/
def length : Reader Nat := do
  let first ← octet
  if first < 0x80 then return first.toNat
  else if first = 0x81 then
    let size := (← octet).toNat
    guard (128 ≤ size)
    return size
  else if first = 0x82 then
    let high ← octet
    let low ← octet
    let size := 256 * high.toNat + low.toNat
    guard (256 ≤ size)
    return size
  else failure

/-- Reads the contents of an element with a tag. -/
def contents (tag : UInt8) : Reader (List UInt8) := do
  guard ((← octet) = tag)
  let size ← length
  let octets ← get
  guard (size ≤ octets.length)
  set (octets.drop size)
  return octets.take size

/-- Reads an element with a tag, whose contents a reader has to use up. -/
def nested {α : Type} (tag : UInt8) (reader : Reader α) : Reader α := do
  match whole reader (← contents tag) with
  | some found => return found
  | none => failure

/-- Whether the next element has a tag. -/
def isNext (tag : UInt8) : Reader Bool := do return (← get).head? = some tag

/-- The number that octets stand for, the highest first. -/
def number (octets : List UInt8) : Nat :=
  octets.foldl (fun value octet => 256 * value + octet.toNat) 0

/-- Reads an integer that is not negative and has no needless octet. -/
def natural : Reader Nat := do
  match ← contents integerTag with
  | [] => failure
  | [0] => return 0
  | 0 :: second :: rest =>
    guard (0x80 ≤ second)
    return number (second :: rest)
  | first :: rest =>
    guard (first < 0x80)
    return number (first :: rest)

/-- Reads an integer above zero. -/
def positive : Reader Nat := do
  let value ← natural
  guard (0 < value)
  return value

/-- Reads a string of bits that fills its octets, with a tag. -/
def bits (tag : UInt8) : Reader (List UInt8) := do
  match ← contents tag with
  | 0 :: octets => return octets
  | _ => failure

end DirectoryService.Der
