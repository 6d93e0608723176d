import DirectoryService.Tls.Curve
import DirectoryService.Tls.Der
import DirectoryService.Tls.Edwards

/-!
# Private keys

A private key belongs to one of three systems. It comes as a record of its system, or in an envelope
that also names the system. The parts of a key that follow from others are checked against them.
-/

namespace DirectoryService

/-- A key whose modulus is a product of two primes. -/
structure FactorKey where
  /-- The product of the factors. -/
  modulus : Nat
  /-- The exponent of the public key. -/
  publicExponent : Nat
  /-- The exponent of the private key. -/
  exponent : Nat
  /-- The first factor. -/
  first : Nat
  /-- The second factor. -/
  second : Nat
  /-- The exponent modulo the first factor. -/
  firstExponent : Nat
  /-- The exponent modulo the second factor. -/
  secondExponent : Nat
  /-- The inverse of the second factor modulo the first. -/
  coefficient : Nat

namespace FactorKey

/-- Reads the record of a key. -/
def reader : Der.Reader FactorKey := Der.nested Der.sequenceTag do
  guard ((← Der.natural) = 0)
  let modulus ← Der.positive
  let publicExponent ← Der.positive
  let exponent ← Der.positive
  let first ← Der.positive
  let second ← Der.positive
  let firstExponent ← Der.positive
  let secondExponent ← Der.positive
  let coefficient ← Der.positive
  return { modulus, publicExponent, exponent, first, second, firstExponent, secondExponent,
           coefficient }

/-- The number of bits of a number. -/
def bits (value : Nat) : Nat := if value = 0 then 0 else value.log2 + 1

/-- Whether the sizes of modulus and exponents are allowed. -/
def hasSizes (key : FactorKey) : Bool :=
  let half := (bits key.modulus + 1) / 2
  2040 < bits key.modulus && bits key.modulus ≤ 4096 && key.modulus % 2 == 1 &&
    65537 ≤ key.publicExponent && key.publicExponent < 0x200000000 && key.publicExponent % 2 == 1 &&
    bits key.first == half && bits key.second == half && half % 512 == 0 &&
    half < bits key.exponent && key.exponent < key.modulus && key.exponent % 2 == 1

/-- Whether a factor and the exponent that belongs to it are odd and in order. -/
def isFactor (factor exponent : Nat) : Bool :=
  factor % 2 == 1 && exponent % 2 == 1 && exponent < factor

/-- Whether the coefficient inverts the second factor modulo the first, whichever is greater. -/
def hasInverse (key : FactorKey) : Bool :=
  key.coefficient < key.first && key.second * key.coefficient % key.first == 1

/-- Whether the parts of a key belong together. -/
def isSound (key : FactorKey) : Bool :=
  key.hasSizes && isFactor key.first key.firstExponent && isFactor key.second key.secondExponent &&
    key.first * key.second % key.modulus == 0 && key.hasInverse

end FactorKey

/-- A key in its envelope. -/
structure EnvelopedKey where
  /-- What names the system. -/
  system : List UInt8
  /-- The record of the key. -/
  record : List UInt8
  /-- The public key, if it comes along. -/
  publicKey : Option (List UInt8)

/-- Reads the public key at the end of an envelope. -/
def EnvelopedKey.publicKeyReader : Der.Reader (List UInt8) := do
  if ← Der.isNext 0xA1 then Der.nested 0xA1 (Der.bits Der.bitsTag)
  else Der.bits 0x81

/-- Reads a key in its envelope. Attributes mean nothing; the public key stands in envelopes of the
second version only. -/
def EnvelopedKey.reader : Der.Reader EnvelopedKey := Der.nested Der.sequenceTag do
  let version ← Der.natural
  guard (version ≤ 1)
  let system ← Der.contents Der.sequenceTag
  let record ← Der.contents Der.octetsTag
  if ← Der.isNext 0xA0 then discard (Der.contents 0xA0)
  if version = 0 then return ⟨system, record, none⟩
  return ⟨system, record, some (← publicKeyReader)⟩

namespace PrivateKey

/-- The name of the system of products of primes. -/
def factorSystem : List UInt8 :=
  [0x06, 0x09, 0x2A, 0x86, 0x48, 0x86, 0xF7, 0x0D, 0x01, 0x01, 0x01, 0x05, 0x00]

/-- The name of the system of points on a curve. -/
def curveSystem (curve : Curve) : List UInt8 :=
  [0x06, 0x07, 0x2A, 0x86, 0x48, 0xCE, 0x3D, 0x02, 0x01] ++ curve.identifier

/-- The name of the system of points on the Edwards curve. -/
def edwardsSystem : List UInt8 := [0x06, 0x03, 0x2B, 0x65, 0x70]

/-- Whether octets are the record of a sound key of factors. -/
def isFactorRecord (octets : List UInt8) : Bool :=
  match Der.whole FactorKey.reader octets with
  | some key => key.isSound
  | none => false

/-- Reads the private and the public key of a record of a curve. -/
def curveReader (curve : Curve) : Der.Reader (List UInt8 × List UInt8) :=
  Der.nested Der.sequenceTag do
    guard ((← Der.natural) = 1)
    let privateKey ← Der.contents Der.octetsTag
    if ← Der.isNext 0xA0 then guard ((← Der.contents 0xA0) = curve.identifier)
    return (privateKey, ← Der.nested 0xA1 (Der.bits Der.bitsTag))

/-- Whether octets are the record of a key on a curve, with the public key that belongs to it. -/
def isCurveRecord (curve : Curve) (octets : List UInt8) : Bool :=
  match Der.whole (curveReader curve) octets with
  | some (privateKey, publicKey) =>
    let steps := Der.number privateKey
    privateKey.length == curve.size && 0 < steps && steps < curve.order &&
      curve.publicKey steps == some publicKey
  | none => false

/-- Whether octets are the record of a seed, to which a public key belongs if one is given. -/
def isSeedRecord (octets : List UInt8) (publicKey : Option (List UInt8)) : Bool :=
  match Der.whole (Der.contents Der.octetsTag) octets with
  | some seed =>
    seed.length == 32 && publicKey.all fun given => given == Edwards.publicKey seed
  | none => false

/-- Whether a key in its envelope can be used. -/
def isUsableEnvelope (key : EnvelopedKey) : Bool :=
  if key.system = edwardsSystem then isSeedRecord key.record key.publicKey
  else key.publicKey.isNone &&
    (key.system == factorSystem && isFactorRecord key.record ||
      [Curve.p256, Curve.p384].any fun curve =>
        key.system == curveSystem curve && isCurveRecord curve key.record)

/-- Whether octets are a private key that can be used, in its envelope or without. -/
def isUsable (octets : List UInt8) : Bool :=
  isFactorRecord octets || isCurveRecord .p256 octets || isCurveRecord .p384 octets ||
    match Der.whole EnvelopedKey.reader octets with
    | some key => isUsableEnvelope key
    | none => false

end PrivateKey

end DirectoryService
