import DirectoryService.Tls.Modular
import DirectoryService.Tls.Sha512

/-!
# The twisted Edwards curve of 255 bits

Points satisfy `y² - x² = 1 + d x² y²`. A private key is a seed of 32 octets; its digest gives the
number of steps from the base point to the public key.
-/

namespace DirectoryService.Edwards

/-- The prime modulo which coordinates are counted. -/
def prime : Nat := (1 <<< 255) - 19

/-- The coefficient of the curve. -/
def coefficient : Nat := (prime - 121665) * Modular.inverse 121666 prime % prime

/-- The point from which keys are counted. -/
def base : Nat × Nat :=
  (0x216936d3cd6e53fec0a4e231fdd6dc5c692cc7609525a7b2c9562d608f25d51a,
    0x6666666666666666666666666666666666666666666666666666666666666658)

/-- The sum of two points. -/
def add (left right : Nat × Nat) : Nat × Nat :=
  let (x₁, y₁) := left
  let (x₂, y₂) := right
  let cross := coefficient * (x₁ * x₂ % prime) * (y₁ * y₂ % prime) % prime
  ((x₁ * y₂ + x₂ * y₁) * Modular.inverse (1 + cross) prime % prime,
    (y₁ * y₂ + x₁ * x₂) * Modular.inverse (1 + (prime - cross)) prime % prime)

/-- A point added to itself some number of times. -/
def multiply (count : Nat) (point : Nat × Nat) : Nat × Nat :=
  if count = 0 then (0, 1)
  else
    let half := multiply (count / 2) (add point point)
    if count % 2 = 1 then add point half else half
termination_by count

/-- The number that octets stand for, the lowest first. -/
def number (octets : List UInt8) : Nat :=
  octets.foldr (fun octet value => octet.toNat + 256 * value) 0

/-- The lowest octets of a number, the lowest first. -/
def octets (value : Nat) : (size : Nat) → List UInt8
  | 0 => []
  | size + 1 => UInt8.ofNat value :: octets (value / 256) size

/-- The octets of the public key that belongs to a seed. The number of steps is a multiple of eight
between `2 ^ 254` and `2 ^ 255`. -/
def publicKey (seed : List UInt8) : List UInt8 :=
  let steps := number ((Sha512.digest seed).take 32)
  let (x, y) := multiply ((1 <<< 254) + steps % (1 <<< 254) / 8 * 8) base
  octets (y + ((x % 2) <<< 255)) 32

end DirectoryService.Edwards
