import Gatehouse.Bytes

namespace Gatehouse.Hex

inductive DecodeError
  | oddLength
  | invalidCharacter (byte : UInt8) (index : Nat)
deriving Repr, DecidableEq

def digit (n : Nat) : Char := "0123456789abcdef".toList.getD n '0'

def encode (bs : Bytes) : String :=
  String.ofList (bs.flatMap fun b => [digit (b.toNat / 16), digit (b.toNat % 16)])

def value? (b : UInt8) : Option Nat :=
  let n := b.toNat
  if 48 ≤ n ∧ n ≤ 57 then some (n - 48)
  else if 97 ≤ n ∧ n ≤ 102 then some (n - 87)
  else if 65 ≤ n ∧ n ≤ 70 then some (n - 55)
  else none

/-- Reads pairs of digits; `index` is the offset of the first of them in the whole text. -/
def decodePairs (index : Nat) : Bytes → Except DecodeError Bytes
  | [] => .ok []
  | [_] => .error .oddLength
  | hi :: lo :: rest =>
    match value? hi, value? lo with
    | none, _ => .error (.invalidCharacter hi index)
    | some _, none => .error (.invalidCharacter lo (index + 1))
    | some h, some l => (UInt8.ofNat (h * 16 + l) :: ·) <$> decodePairs (index + 2) rest

/-- An odd number of bytes is reported before any character that is not a digit. -/
def decode (text : Bytes) : Except DecodeError Bytes :=
  if text.length % 2 = 1 then .error .oddLength else decodePairs 0 text

end Gatehouse.Hex
