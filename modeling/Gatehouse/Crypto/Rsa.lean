namespace Gatehouse.Crypto

/-- The parts of an RSA private key (RFC 8017). -/
structure RsaKey where
  modulus : Nat
  publicExponent : Nat
  privateExponent : Nat
  prime1 : Nat
  prime2 : Nat
  /-- The private exponent modulo each prime less one. -/
  exponent1 : Nat
  exponent2 : Nat
  /-- The inverse of the second prime modulo the first. -/
  coefficient : Nat
deriving Repr, DecidableEq

namespace RsaKey

/-- The digits of a number in base two. -/
def bitLength (n : Nat) : Nat := if n = 0 then 0 else n.log2 + 1

/-- A public key that is accepted: 2048 bits at least, the last byte counting in full, and 4096 at
most; an exponent from 65537 on, of 33 bits at most. Both are odd. -/
def hasSoundPublicPart (k : RsaKey) : Bool :=
  let bits := bitLength k.modulus
  k.modulus % 2 == 1 && 2048 ≤ (bits + 7) / 8 * 8 && bits ≤ 4096 &&
    k.publicExponent % 2 == 1 && 65537 ≤ k.publicExponent && k.publicExponent < Nat.pow 2 33

/-- A factor that is accepted: odd, half as long as the modulus, and of a length that is a multiple
of 512 bits, with an odd exponent below it. -/
def isSoundFactor (k : RsaKey) (prime exponent : Nat) : Bool :=
  prime % 2 == 1 && bitLength prime == (bitLength k.modulus + 1) / 2 &&
    bitLength prime % 512 == 0 && exponent % 2 == 1 && exponent < prime

/-- A private key whose parts fit together as far as that is looked at. The private exponent is not
compared with the public one. -/
def isSound (k : RsaKey) : Bool :=
  k.hasSoundPublicPart && k.isSoundFactor k.prime1 k.exponent1 &&
    k.isSoundFactor k.prime2 k.exponent2 && k.prime1 * k.prime2 % k.modulus == 0 &&
    k.privateExponent % 2 == 1 && k.privateExponent < k.modulus &&
    (bitLength k.modulus + 1) / 2 < bitLength k.privateExponent &&
    k.coefficient < k.prime1 && k.coefficient * k.prime2 % k.prime1 == 1

end RsaKey
end Gatehouse.Crypto
