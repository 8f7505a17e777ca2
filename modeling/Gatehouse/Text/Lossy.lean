import Gatehouse.Bytes

namespace Gatehouse.Text

def replacementMark : Char := Char.ofNat 0xfffd

/-- A character of several bytes that is under way: the bits so far, how many bytes are to come,
and between which bounds the next one is. -/
structure Pending where
  bits : Nat
  left : Nat
  low : UInt8
  high : UInt8
deriving Repr, DecidableEq

/-- The start of a character of several bytes. The bounds leave out longer forms than needed,
surrogates, and what lies behind the last character. -/
def Pending.start? (b : UInt8) : Option Pending :=
  if 0xc2 ≤ b ∧ b ≤ 0xdf then some ⟨b.toNat % 32, 1, 0x80, 0xbf⟩
  else if b = 0xe0 then some ⟨0, 2, 0xa0, 0xbf⟩
  else if b = 0xed then some ⟨13, 2, 0x80, 0x9f⟩
  else if 0xe1 ≤ b ∧ b ≤ 0xef then some ⟨b.toNat % 16, 2, 0x80, 0xbf⟩
  else if b = 0xf0 then some ⟨0, 3, 0x90, 0xbf⟩
  else if 0xf1 ≤ b ∧ b ≤ 0xf3 then some ⟨b.toNat % 8, 3, 0x80, 0xbf⟩
  else if b = 0xf4 then some ⟨4, 3, 0x80, 0x8f⟩
  else none

def startByte (b : UInt8) : List Char × Option Pending :=
  if b < 0x80 then ([Char.ofNat b.toNat], none)
  else
    match Pending.start? b with
    | some p => ([], some p)
    | none => ([replacementMark], none)

def Pending.step (p : Pending) (b : UInt8) : List Char × Option Pending :=
  if p.low ≤ b ∧ b ≤ p.high then
    let bits := p.bits * 64 + b.toNat % 64
    if p.left = 1 then ([Char.ofNat bits], none) else ([], some ⟨bits, p.left - 1, 0x80, 0xbf⟩)
  else
    let (cs, next) := startByte b
    (replacementMark :: cs, next)

def lossyFrom (pending : Option Pending) : Bytes → List Char
  | [] => if pending.isSome then [replacementMark] else []
  | b :: rest =>
    let (cs, next) := match pending with
      | some p => p.step b
      | none => startByte b
    cs ++ lossyFrom next rest

/-- The text that bytes show as. The start of a character that is broken off, and every byte that
starts none, shows as one replacement mark. -/
def lossy (bs : Bytes) : String := String.ofList (lossyFrom none bs)

end Gatehouse.Text
