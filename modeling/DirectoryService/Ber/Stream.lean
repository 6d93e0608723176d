import DirectoryService.Ber.Frame

/-!
# Whole streams

A stream is read one packet after the other. Reading goes on after a packet with broken contents,
since the place of the next one is known, and is over at the end of the stream or when the place of
the next packet is lost.
-/

namespace DirectoryService.Ber

/-- Whether the stream still stands before a packet after a reading. -/
def Reading.goesOn : Reading (Option Packet) → Bool
  | .got packet _ => packet.isSome
  | .failed fault _ => fault.isRecoverable

/-- Everything that a stream yields, up to the reading after which there is nothing more. -/
def readStream (stop : Stop) : List UInt8 → List (Reading (Option Packet))
  | [] => [readFrame stop []]
  | leading :: more =>
    let reading := readFrame stop (leading :: more)
    if reading.goesOn then reading :: readStream stop reading.rest else [reading]
termination_by octets => octets.length
decreasing_by exact rest_readFrame_lt stop leading more

end DirectoryService.Ber
