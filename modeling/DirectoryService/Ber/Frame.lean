import DirectoryService.Ber.Decoding

/-!
# Packets on a stream

A stream holds one encoded packet after the other. Reading a frame takes exactly the octets of one
packet: the header tells how many there are, so that a packet with broken contents does not lose the
place of the next one.
-/

namespace DirectoryService.Ber

/-- How a stream goes on after its last octet. -/
inductive Stop where
  /-- It ends. -/
  | closed
  /-- It fails. -/
  | failed (failure : IoFailure)
deriving DecidableEq

/-- The fault of a stream that stops inside a header. -/
def Stop.insideHeader : Stop → Fault
  | .closed => .unexpectedEnd
  | .failed failure => if failure.kind = .unexpectedEnd then .unexpectedEnd else .io failure

/-- The fault of a stream that stops inside the contents. -/
def Stop.insideContents : Stop → Fault
  | .closed => .unexpectedEnd
  | .failed failure => .io failure

/-- What a stream yields, with the octets that are left on it. -/
inductive Reading (α : Type) where
  /-- The item was read. -/
  | got (item : α) (rest : List UInt8)
  /-- The item could not be read. -/
  | failed (fault : Fault) (rest : List UInt8)

/-- Goes on from what was read with the octets that are left. -/
def Reading.andThen {α β : Type} (reading : Reading α) (next : α → List UInt8 → Reading β) :
    Reading β :=
  match reading with
  | .got item rest => next item rest
  | .failed fault rest => .failed fault rest

namespace Reading

/-- The octets that are left. -/
def rest {α : Type} : Reading α → List UInt8
  | .got _ rest => rest
  | .failed _ rest => rest

theorem rest_andThen_le {α β : Type} {reading : Reading α} {next : α → List UInt8 → Reading β}
    {size : Nat} (here : reading.rest.length ≤ size)
    (later : ∀ item rest, (next item rest).rest.length ≤ rest.length) :
    (reading.andThen next).rest.length ≤ size := by
  cases reading with
  | got item rest => exact Nat.le_trans (later item rest) here
  | failed fault rest => exact here

end Reading

/-- The most octets that may stand before the length. -/
def identifierLimit : Nat := 7

/-- The octets of a tag number, of which `taken` identifier octets are read already. -/
def takeTagNumber (stop : Stop) (taken : Nat) : List UInt8 → Reading (List UInt8)
  | [] => .failed stop.insideHeader []
  | octet :: rest =>
    if octet < 0x80 then .got [octet] rest
    else if identifierLimit ≤ taken + 1 then .failed (.wideLength taken) rest
    else (takeTagNumber stop (taken + 1) rest).andThen fun more rest => .got (octet :: more) rest

/-- The identifier octets that follow a leading one. -/
def takeTag (stop : Stop) (leading : UInt8) (octets : List UInt8) : Reading (List UInt8) :=
  if leading % 32 = 31 then takeTagNumber stop 1 octets else .got [] octets

/-- The octets of a length, with the length. -/
def takeLength (stop : Stop) : List UInt8 → Reading (List UInt8 × Nat)
  | [] => .failed stop.insideHeader []
  | first :: rest =>
    if first < 0x80 then .got ([first], first.toNat) rest
    else
      let count := first.toNat - 128
      if count = 0 then .failed .indefiniteLength rest
      else if 4 < count then .failed (.wideLength count) rest
      else if (rest.take count).length < count then .failed stop.insideHeader []
      else .got (first :: rest.take count, unsigned (rest.take count)) (rest.drop count)

/-- The octets of the contents. -/
def takeContents (stop : Stop) (length : Nat) (octets : List UInt8) : Reading (List UInt8) :=
  if contentLimit < length then .failed (.tooLarge length) octets
  else if (octets.take length).length < length then .failed stop.insideContents []
  else .got (octets.take length) (octets.drop length)

/-- The octets of the next packet. -/
def takeFrame (stop : Stop) (leading : UInt8) (octets : List UInt8) : Reading (List UInt8) :=
  (takeTag stop leading octets).andThen fun tag rest =>
  (takeLength stop rest).andThen fun length rest =>
  (takeContents stop length.2 rest).andThen fun contents rest =>
  .got (leading :: tag ++ length.1 ++ contents) rest

/-- Reads the next packet of a stream, if there is one. -/
def readFrame (stop : Stop) : List UInt8 → Reading (Option Packet)
  | [] =>
    match stop with
    | .closed => .got none []
    | .failed failure =>
      if failure.kind = .unexpectedEnd then .got none [] else .failed (.io failure) []
  | leading :: octets =>
    (takeFrame stop leading octets).andThen fun frame rest =>
      match Packet.decode frame with
      | .ok packet => .got (some packet) rest
      | .error cause => .failed (.malformed cause) rest

theorem rest_takeTagNumber_le (stop : Stop) (taken : Nat) (octets : List UInt8) :
    (takeTagNumber stop taken octets).rest.length ≤ octets.length := by
  induction octets generalizing taken with
  | nil => simp [takeTagNumber, Reading.rest]
  | cons octet octets ih =>
    simp only [takeTagNumber]
    split
    · simp [Reading.rest]
    · split
      · simp [Reading.rest]
      · exact Reading.rest_andThen_le (Nat.le_succ_of_le (ih (taken + 1)))
          fun _ rest => Nat.le_refl rest.length

theorem rest_takeTag_le (stop : Stop) (leading : UInt8) (octets : List UInt8) :
    (takeTag stop leading octets).rest.length ≤ octets.length := by
  unfold takeTag
  split
  · exact rest_takeTagNumber_le stop 1 octets
  · exact Nat.le_refl _

theorem rest_takeLength_le (stop : Stop) (octets : List UInt8) :
    (takeLength stop octets).rest.length ≤ octets.length := by
  fun_cases takeLength stop octets
  all_goals simp only [Reading.rest, List.length_cons, List.length_nil, List.length_drop]
  all_goals omega

theorem rest_takeContents_le (stop : Stop) (length : Nat) (octets : List UInt8) :
    (takeContents stop length octets).rest.length ≤ octets.length := by
  fun_cases takeContents stop length octets <;> simp [Reading.rest]

/-- A frame takes its leading octet at least. -/
theorem rest_readFrame_lt (stop : Stop) (leading : UInt8) (octets : List UInt8) :
    (readFrame stop (leading :: octets)).rest.length < (leading :: octets).length := by
  refine Nat.lt_succ_of_le (Reading.rest_andThen_le (Reading.rest_andThen_le
    (rest_takeTag_le stop leading octets) fun tag rest => Reading.rest_andThen_le
      (rest_takeLength_le stop rest) fun length rest => Reading.rest_andThen_le
        (rest_takeContents_le stop length.2 rest) fun contents rest => Nat.le_refl _)
    fun frame rest => ?_)
  split <;> exact Nat.le_refl _

end DirectoryService.Ber
