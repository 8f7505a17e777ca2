import Gatehouse.Bytes

namespace Gatehouse.Base64

/-- Why a text is not the Base64 form of a byte string. Offsets count bytes of the text. -/
inductive DecodeError
  | invalidSymbol (symbol : UInt8) (offset : Nat)
  | invalidLength (length : Nat)
  | invalidPadding
  | invalidLastSymbol (symbol : UInt8) (offset : Nat)
deriving Repr, DecidableEq

def DecodeError.message : DecodeError → String
  | .invalidSymbol b i => s!"Invalid symbol {b.toNat}, offset {i}."
  | .invalidLength n => s!"Invalid input length: {n}"
  | .invalidPadding => "Invalid padding"
  | .invalidLastSymbol b i => s!"Invalid last symbol {b.toNat}, offset {i}."

def pad : UInt8 := 61

def symbol (n : Nat) : UInt8 :=
  if n < 26 then UInt8.ofNat (65 + n)
  else if n < 52 then UInt8.ofNat (71 + n)
  else if n < 62 then UInt8.ofNat (n - 4)
  else if n = 62 then 43 else 47

def value? (b : UInt8) : Option Nat :=
  let n := b.toNat
  if 65 ≤ n ∧ n ≤ 90 then some (n - 65)
  else if 97 ≤ n ∧ n ≤ 122 then some (n - 71)
  else if 48 ≤ n ∧ n ≤ 57 then some (n + 4)
  else if n = 43 then some 62
  else if n = 47 then some 63
  else none

/-- Base64 with the standard alphabet (RFC 4648). Three bytes become four symbols; a shorter last
group is filled up. -/
def encode : Bytes → Bytes
  | a :: b :: c :: rest =>
    symbol (a.toNat / 4) :: symbol (a.toNat % 4 * 16 + b.toNat / 16) ::
      symbol (b.toNat % 16 * 4 + c.toNat / 64) :: symbol (c.toNat % 64) :: encode rest
  | [a, b] =>
    [symbol (a.toNat / 4), symbol (a.toNat % 4 * 16 + b.toNat / 16), symbol (b.toNat % 16 * 4), pad]
  | [a] => [symbol (a.toNat / 4), symbol (a.toNat % 4 * 16), pad, pad]
  | [] => []

def encodeText (bs : Bytes) : String :=
  String.ofList ((encode bs).map fun b => Char.ofNat b.toNat)

/-- The bytes in groups of four numbers; what a last, shorter group leaves over is dropped. -/
def decodeValues : List Nat → Bytes
  | a :: b :: c :: d :: rest =>
    UInt8.ofNat (a * 4 + b / 16) :: UInt8.ofNat (b * 16 + c / 4) :: UInt8.ofNat (c * 64 + d) ::
      decodeValues rest
  | [a, b, c] => [UInt8.ofNat (a * 4 + b / 16), UInt8.ofNat (b * 16 + c / 4)]
  | [a, b] => [UInt8.ofNat (a * 4 + b / 16)]
  | _ => []

/-- The numbers of symbols that stand at `offset` and on; padding counts as no symbol. -/
def valuesFrom (offset : Nat) : Bytes → Except DecodeError (List Nat)
  | [] => .ok []
  | b :: rest =>
    match value? b with
    | none => .error (.invalidSymbol b offset)
    | some v => (v :: ·) <$> valuesFrom (offset + 1) rest

/-- Padding to the end of the last group, `first` being the offset where it began. -/
def checkPadding (first : Nat) : Bytes → Except DecodeError Unit
  | [] => .ok ()
  | b :: rest => if b = pad then checkPadding first rest else .error (.invalidSymbol pad first)

/-- The symbols of the last group, the `index`-th at `offset`: two at least before any padding. -/
def lastGroup (index offset : Nat) : Bytes → Except DecodeError (List Nat)
  | [] => .ok []
  | b :: rest =>
    if b = pad then
      if index < 2 then .error (.invalidSymbol pad offset)
      else do
        checkPadding offset rest
        return []
    else
      match value? b with
      | none => .error (.invalidSymbol b offset)
      | some v => (v :: ·) <$> lastGroup (index + 1) (offset + 1) rest

def leftover : List Nat → Nat
  | [_, b] => b % 16
  | [_, _, c] => c % 4
  | _ => 0

/-- How many bytes at the end are looked at as the last group. -/
def tailLength (n : Nat) : Nat := if n % 4 = 0 then min 4 n else n % 4

/-- A lone byte behind whole groups that is no symbol at all is reported before anything else. -/
def checkStray (text : Bytes) : Except DecodeError Unit :=
  match text.getLast? with
  | some b =>
    if text.length % 4 = 1 ∧ b ≠ pad ∧ (value? b).isNone then
      .error (.invalidSymbol b (text.length - 1))
    else .ok ()
  | none => .ok ()

/-- Decoding is strict: padding is required and the unused bits of the last symbol are zero, so that
a byte string has one written form. -/
def decode (text : Bytes) : Except DecodeError Bytes := do
  checkStray text
  let start := text.length - tailLength text.length
  let front ← valuesFrom 0 (text.take start)
  let last ← lastGroup 0 start (text.drop start)
  if text.isEmpty then return []
  if last.length < 2 then throw (.invalidLength (start + last.length))
  if (text.length - start) % 4 ≠ 0 then throw .invalidPadding
  if leftover last ≠ 0 then
    let offset := start + last.length - 1
    throw (.invalidLastSymbol (text.getD offset 0) offset)
  return decodeValues (front ++ last)

end Gatehouse.Base64
