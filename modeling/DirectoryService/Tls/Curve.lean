import DirectoryService.Tls.Modular

/-!
# Elliptic curves

The curves `y² = x³ - 3x + b` modulo a prime that private keys are made on. A private key is a
number, and its public key the point that many steps from the generator.
-/

namespace DirectoryService

/-- A curve. -/
structure Curve where
  /-- The prime modulo which coordinates are counted. -/
  prime : Nat
  /-- The number of points. -/
  order : Nat
  /-- The point from which keys are counted. -/
  generator : Nat × Nat
  /-- The number of octets of a coordinate. -/
  size : Nat
  /-- The identifier of the curve, as an element of a key. -/
  identifier : List UInt8

namespace Curve

/-- A point of a curve, the one at infinity being absent. -/
abbrev Point := Option (Nat × Nat)

/-- The point that a line of some slope through two points leads to. -/
def meet (curve : Curve) (slope : Nat) (left right : Nat × Nat) : Nat × Nat :=
  let p := curve.prime
  let x := Modular.difference (slope * slope % p) ((left.1 + right.1) % p) p
  (x, Modular.difference (slope * Modular.difference left.1 x p % p) left.2 p)

/-- The sum of two points. -/
def add (curve : Curve) (left right : Point) : Point :=
  let p := curve.prime
  match left, right with
  | none, point => point
  | point, none => point
  | some (x₁, y₁), some (x₂, y₂) =>
    if x₁ = x₂ then
      if (y₁ + y₂) % p = 0 then none
      else
        let above := 3 * (x₁ * x₁ + (p - 1)) % p
        curve.meet (above * Modular.inverse (2 * y₁ % p) p % p) (x₁, y₁) (x₂, y₂)
    else
      let above := Modular.difference y₂ y₁ p
      curve.meet (above * Modular.inverse (Modular.difference x₂ x₁ p) p % p) (x₁, y₁) (x₂, y₂)

/-- A point added to itself some number of times. -/
def multiply (curve : Curve) (count : Nat) (point : Point) : Point :=
  if count = 0 then none
  else
    let half := multiply curve (count / 2) (curve.add point point)
    if count % 2 = 1 then curve.add point half else half
termination_by count

/-- The octets of a coordinate, the highest first. -/
def coordinate (value : Nat) : Nat → List UInt8
  | 0 => []
  | size + 1 => coordinate (value / 256) size ++ [UInt8.ofNat value]

/-- The octets of the public key that belongs to a private one. -/
def publicKey (curve : Curve) (privateKey : Nat) : Option (List UInt8) := do
  let (x, y) ← curve.multiply privateKey (some curve.generator)
  return 4 :: coordinate x curve.size ++ coordinate y curve.size

/-- The curve of 256 bits. -/
def p256 : Curve where
  prime := 0xffffffff00000001000000000000000000000000ffffffffffffffffffffffff
  order := 0xffffffff00000000ffffffffffffffffbce6faada7179e84f3b9cac2fc632551
  generator :=
    (0x6b17d1f2e12c4247f8bce6e563a440f277037d812deb33a0f4a13945d898c296,
      0x4fe342e2fe1a7f9b8ee7eb4a7c0f9e162bce33576b315ececbb6406837bf51f5)
  size := 32
  identifier := [0x06, 0x08, 0x2A, 0x86, 0x48, 0xCE, 0x3D, 0x03, 0x01, 0x07]

/-- The curve of 384 bits. -/
def p384 : Curve where
  prime := (1 <<< 384) - (1 <<< 128) - (1 <<< 96) + (1 <<< 32) - 1
  order := (1 <<< 384) - 0x389cb27e0bc8d220a7e5f24db74f58851313e695333ad68d
  generator :=
    ((0xaa87ca22be8b05378eb1c71ef320ad746e1d3b628ba79b98 <<< 192) +
        0x59f741e082542a385502f25dbf55296c3a545e3872760ab7,
      (0x3617de4a96262c6f5d9e98bf9292dc29f8f41dbd289a147c <<< 192) +
        0xe9da3113b5f0b8c00a60b1ce1d7e819d7a431d7c90ea0e5f)
  size := 48
  identifier := [0x06, 0x05, 0x2B, 0x81, 0x04, 0x00, 0x22]

end Curve

end DirectoryService
