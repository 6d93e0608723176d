import DirectoryService.Ber.Fault

/-!
# Integer contents

An integer is written in two's complement, most significant octet first, in as few octets as hold
its sign. One to eight octets are read.
-/

namespace DirectoryService.Ber.Integer

/-- The lowest octet of an integer in two's complement. -/
def lowOctet (value : Int) : UInt8 := UInt8.ofNat (value % 256).toNat

/-- The shortest two's complement form of an integer. -/
def encode (value : Int) : List UInt8 :=
  if -128 ≤ value ∧ value < 128 then [lowOctet value]
  else encode (value / 256) ++ [lowOctet value]
termination_by value.natAbs
decreasing_by omega

/-- The integer that octets stand for, taken one octet at a time below the sign of the first. -/
def signed (octets : List UInt8) : Int :=
  octets.foldl (fun sum octet => 256 * sum + octet.toNat) (if 0x80 ≤ octets.headD 0 then -1 else 0)

/-- Reads the contents of an integer. -/
def decode (octets : List UInt8) : Except ValueFault Int :=
  if octets.length = 0 ∨ 8 < octets.length then .error (.integerWidth octets.length)
  else .ok (signed octets)

end DirectoryService.Ber.Integer
