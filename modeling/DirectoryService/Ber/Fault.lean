import DirectoryService.Text.Utf8

/-!
# What can be wrong with a packet

Three layers report faults: a stream that yields no whole packet, octets that are no packet, and a
packet whose contents are not a value of the expected type.
-/

namespace DirectoryService

/-- The kind of a failed transmission, as far as it matters here. -/
inductive IoKind where
  /-- The other side stopped before it should have. -/
  | unexpectedEnd
  /-- The other side dropped the connection. -/
  | connectionReset
  /-- The other side no longer reads. -/
  | brokenPipe
  /-- Any other kind. -/
  | other
deriving DecidableEq

/-- A failed transmission. -/
structure IoFailure where
  /-- The kind of the failure. -/
  kind : IoKind
  /-- Its wording. -/
  text : String
deriving DecidableEq

namespace Ber

/-- The longest contents that a stream may announce for one packet. -/
def contentLimit : Nat := 16 * 1024 * 1024

/-- The deepest level below the outermost packet at which a packet may stand. -/
def depthLimit : Nat := 64

/-- Why octets are not one packet. -/
inductive PacketFault where
  /-- A packet stands deeper than `depthLimit`. -/
  | tooDeep
  /-- There are no octets. -/
  | empty
  /-- The octets end inside the tag number. -/
  | truncatedTag
  /-- The tag number needs more than 32 bits. -/
  | tagOverflow
  /-- The octets end before the length. -/
  | truncatedLength
  /-- The length is left open. -/
  | indefiniteLength
  /-- The length has more than four octets. -/
  | wideLength (octets : Nat)
  /-- The octets end inside the length. -/
  | truncatedLongLength
  /-- The length is greater than the number of octets that follow. -/
  | overrun (length available : Nat)
  /-- Octets follow the packet. -/
  | trailing (octets : Nat)
deriving DecidableEq

/-- The wording of a packet fault. -/
def PacketFault.message : PacketFault → String
  | .tooDeep => s!"nesting deeper than {depthLimit} levels"
  | .empty => "empty input"
  | .truncatedTag => "truncated tag"
  | .tagOverflow => "tag number overflow"
  | .truncatedLength => "truncated length"
  | .indefiniteLength => "indefinite length is not supported"
  | .wideLength octets => s!"length field of {octets} octets is too wide"
  | .truncatedLongLength => "truncated long-form length"
  | .overrun length available => s!"contents of {length} bytes exceed the {available} available"
  | .trailing octets => s!"{octets} trailing bytes after packet"

/-- Why a packet is not a value of an expected type. -/
inductive ValueFault where
  /-- An integer was expected, the packet is constructed. -/
  | constructedInteger
  /-- An integer has no octets or more than eight. -/
  | integerWidth (octets : Nat)
  /-- A truth value is not one octet. -/
  | booleanWidth (octets : Nat)
  /-- A text was expected, the packet is constructed. -/
  | constructedText
  /-- The octets of a text are not UTF-8. -/
  | notText (fault : Utf8.Fault)
deriving DecidableEq

/-- The wording of a value fault. -/
def ValueFault.message : ValueFault → String
  | .constructedInteger => "expected primitive integer, found constructed value"
  | .integerWidth octets => s!"integer must be 1 to 8 octets, found {octets}"
  | .booleanWidth octets => s!"boolean must be a single octet, found {octets} octets"
  | .constructedText => "expected primitive string, found constructed value"
  | .notText fault => "string is not UTF-8: " ++ fault.message

/-- A fault of any of the three layers. -/
inductive Fault where
  /-- A stream announces a packet of open length. -/
  | indefiniteLength
  /-- A stream announces a tag number or a length of too many octets. -/
  | wideLength (octets : Nat)
  /-- A stream announces contents beyond `contentLimit`. -/
  | tooLarge (length : Nat)
  /-- A stream ends inside a packet. -/
  | unexpectedEnd
  /-- Octets are not a packet. -/
  | malformed (cause : PacketFault)
  /-- A packet is not a value of the expected type. -/
  | unexpectedValue (cause : ValueFault)
  /-- A stream fails. -/
  | io (failure : IoFailure)
deriving DecidableEq

namespace Fault

/-- The wording of a fault. -/
def message : Fault → String
  | .indefiniteLength => "indefinite length encoding is not supported"
  | .wideLength octets => s!"length field of {octets} octets is too wide"
  | .tooLarge length => s!"packet length {length} exceeds the {contentLimit} byte limit"
  | .unexpectedEnd => "stream closed in the middle of a packet"
  | .malformed cause => "malformed packet: " ++ cause.message
  | .unexpectedValue cause => "unexpected value: " ++ cause.message
  | .io failure => "I/O error: " ++ failure.text

/-- Whether the stream still stands on a packet boundary after the fault. -/
def isRecoverable : Fault → Bool
  | .malformed _ => true
  | .unexpectedValue _ => true
  | _ => false

end Fault

end Ber

end DirectoryService
