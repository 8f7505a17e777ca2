import Gatehouse.Bytes

namespace Gatehouse.Crypto

class Word (W : Type) extends Add W, XorOp W, AndOp W, Complement W where
  /-- Bytes in a word. -/
  size : Nat
  ofNat : Nat → W
  toNat : W → Nat
  shiftRight : W → Nat → W
  rotateRight : W → Nat → W

instance : Word UInt32 where
  size := 4
  ofNat := UInt32.ofNat
  toNat := UInt32.toNat
  shiftRight x n := x >>> UInt32.ofNat n
  rotateRight x n := (x >>> UInt32.ofNat n) ||| (x <<< UInt32.ofNat (32 - n))

instance : Word UInt64 where
  size := 8
  ofNat := UInt64.ofNat
  toNat := UInt64.toNat
  shiftRight x n := x >>> UInt64.ofNat n
  rotateRight x n := (x >>> UInt64.ofNat n) ||| (x <<< UInt64.ofNat (64 - n))

/-- The number whose big-endian bytes these are. -/
def natOfBytes (bs : Bytes) : Nat := bs.foldl (fun n b => n * 256 + b.toNat) 0

def bytesOfNat (width n : Nat) : Bytes :=
  (List.range width).map fun i => UInt8.ofNat (n >>> (8 * (width - 1 - i)))

namespace Word

variable {W : Type} [Word W]

def ofBytes (bs : Bytes) : W := ofNat (natOfBytes bs)

def toBytes (x : W) : Bytes := bytesOfNat (size W) (toNat x)

end Word
end Gatehouse.Crypto
