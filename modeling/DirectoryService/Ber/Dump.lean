import DirectoryService.Ber.Packet
import DirectoryService.Text.Quoted
import DirectoryService.Text.Utf8

/-!
# Dumps

A dump shows a packet one line a node, children below their parent and two spaces further in. Octets
are shown as quoted text if they are text without control characters, and in hexadecimal otherwise.
-/

namespace DirectoryService.Ber.Packet

/-- A control character. -/
def isControl (c : Char) : Bool := c.toNat < 0x20 || (0x7F ≤ c.toNat && c.toNat ≤ 0x9F)

/-- The octets of a primitive packet as a dump shows them. -/
def shownValue (value : List UInt8) : List Char :=
  match Utf8.charsOf 0 (Utf8.pieces value) with
  | .ok text =>
    if text.any isControl then "0x".toList ++ value.flatMap Ascii.hexPair
    else Quoted.quoteChars text
  | .error _ => "0x".toList ++ value.flatMap Ascii.hexPair

/-- What a line says of the identifier. -/
def shownIdentifier (tagClass : TagClass) (form description : String) (tag : UInt32) : List Char :=
  tagClass.name.toList ++ ("(" ++ form ++ ") ").toList ++ description.toList ++ " tag=".toList ++
    Nat.toDigits 10 tag.toNat

mutual

/-- The lines of a packet that stands `depth` levels deep. -/
def dumpLines (depth : Nat) : Packet → List (List Char)
  | .primitive tagClass tag value description =>
    [List.replicate (2 * depth) ' ' ++ shownIdentifier tagClass "prim" description tag ++
      ' ' :: shownValue value]
  | .constructed tagClass tag children description =>
    (List.replicate (2 * depth) ' ' ++ shownIdentifier tagClass "cons" description tag) ::
      dumpLinesAll (depth + 1) children

/-- The lines of packets that stand `depth` levels deep. -/
def dumpLinesAll (depth : Nat) : List Packet → List (List Char)
  | [] => []
  | packet :: rest => dumpLines depth packet ++ dumpLinesAll depth rest

end

/-- The characters of a dump: its lines, each ended by a line feed. -/
def dumpChars (packet : Packet) : List Char :=
  (dumpLines 0 packet).flatMap fun line => line ++ ['\n']

/-- The dump of a packet. -/
def dump (packet : Packet) : String := String.ofList (dumpChars packet)

end DirectoryService.Ber.Packet
