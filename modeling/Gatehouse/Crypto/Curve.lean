import Gatehouse.Crypto.Field
import Gatehouse.Crypto.Word

namespace Gatehouse.Crypto

/-- A curve y² = x³ - 3x + b over a prime field (FIPS 186), by what computing with its points takes:
the prime, a point that generates all others, and how many of them there are. A point shows whether
it is on the curve without `b`, as all are multiples of the generator. -/
structure Curve where
  prime : Nat
  generator : Nat × Nat
  order : Nat
  /-- The bytes of a coordinate, and of a private key. -/
  size : Nat
deriving Repr, DecidableEq

namespace Curve

/-- A point by its coordinates; the neutral one has none. -/
abbrev Point := Option (Nat × Nat)

/-- The slope of the line through two points with different `x`, or of the tangent at one. -/
def slope (c : Curve) (x₁ y₁ x₂ y₂ : Nat) : Nat :=
  if x₁ = x₂ then divMod c.prime (subMod c.prime (3 * x₁ * x₁) 3) (2 * y₁)
  else divMod c.prime (subMod c.prime y₂ y₁) (subMod c.prime x₂ x₁)

/-- The sum of two points: the third point on their line, mirrored. -/
def add (c : Curve) : Point → Point → Point
  | none, q => q
  | p, none => p
  | some (x₁, y₁), some (x₂, y₂) =>
    if x₁ = x₂ ∧ (y₁ + y₂) % c.prime = 0 then none
    else
      let s := c.slope x₁ y₁ x₂ y₂
      let x := subMod c.prime (s * s) (x₁ + x₂)
      some (x, subMod c.prime (s * subMod c.prime x₁ x) y₁)

def publicPoint (c : Curve) (scalar : Nat) : Point :=
  multiple c.add none scalar (some c.generator)

/-- The public key of a private one, as the byte 4 and both coordinates. Private keys are numbers
from 1 up to the order. -/
def publicKey? (c : Curve) (secret : Bytes) : Option Bytes :=
  let scalar := natOfBytes secret
  if secret.length = c.size ∧ 0 < scalar ∧ scalar < c.order then
    (c.publicPoint scalar).map fun (x, y) => 4 :: (bytesOfNat c.size x ++ bytesOfNat c.size y)
  else none

def p256 : Curve where
  prime := 0xffffffff00000001000000000000000000000000ffffffffffffffffffffffff
  generator := (
    0x6b17d1f2e12c4247f8bce6e563a440f277037d812deb33a0f4a13945d898c296,
    0x4fe342e2fe1a7f9b8ee7eb4a7c0f9e162bce33576b315ececbb6406837bf51f5)
  order := 0xffffffff00000000ffffffffffffffffbce6faada7179e84f3b9cac2fc632551
  size := 32

def p384 : Curve where
  prime := Nat.pow 2 384 - Nat.pow 2 128 - Nat.pow 2 96 + Nat.pow 2 32 - 1
  generator := (
    0xaa87ca22be8b05378eb1c71ef320ad746e1d3b628ba79b98 * Nat.pow 2 192 +
      0x59f741e082542a385502f25dbf55296c3a545e3872760ab7,
    0x3617de4a96262c6f5d9e98bf9292dc29f8f41dbd289a147c * Nat.pow 2 192 +
      0xe9da3113b5f0b8c00a60b1ce1d7e819d7a431d7c90ea0e5f)
  order :=
    0xffffffffffffffffffffffffffffffffffffffffffffffff * Nat.pow 2 192 +
      0xc7634d81f4372ddf581a0db248b0a77aecec196accc52973
  size := 48

end Curve
end Gatehouse.Crypto
