import Gatehouse.Crypto.Field
import Gatehouse.Crypto.Sha2

namespace Gatehouse.Crypto.Edwards

def prime : Nat := Nat.pow 2 255 - 19

/-- The coefficient `d` of the curve -x² + y² = 1 + d x² y² modulo 2^255 - 19 (RFC 8032), which is
-121665/121666. -/
def coefficient : Nat := divMod prime (prime - 121665) 121666

abbrev Point := Nat × Nat

def neutral : Point := (0, 1)

def generator : Point := (
  15112221349535400772501151409588531511454012693041857206046113283949847762202,
  46316835694926478169428394003475163141307993866256225615783033603165251855960)

def add (p q : Point) : Point :=
  let (x₁, y₁) := p
  let (x₂, y₂) := q
  let t := coefficient * (x₁ * x₂ % prime) % prime * (y₁ * y₂ % prime) % prime
  (divMod prime (x₁ * y₂ + x₂ * y₁) (1 + t), divMod prime (y₁ * y₂ + x₁ * x₂) (subMod prime 1 t))

def keyLength : Nat := 32

/-- A point as the bytes of `y`, the last one first, with the lowest bit of `x` on top. -/
def encode (p : Point) : Bytes := (bytesOfNat keyLength (p.2 + p.1 % 2 * Nat.pow 2 255)).reverse

/-- The number that a seed stands for: the first half of its hash, the last byte first, with the
three lowest bits off, bit 254 on and bit 255 off. -/
def scalar (seed : Bytes) : Nat :=
  let n := natOfBytes ((sha512 seed).take keyLength).reverse
  n % Nat.pow 2 254 / 8 * 8 + Nat.pow 2 254

def publicKey? (seed : Bytes) : Option Bytes :=
  if seed.length = keyLength then some (encode (multiple add neutral (scalar seed) generator))
  else none

end Gatehouse.Crypto.Edwards
