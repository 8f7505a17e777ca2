import Gatehouse.Bytes

namespace Gatehouse.Tls.Der

/-- An element (X.690, DER): its tag and its contents. -/
structure Element where
  tag : UInt8
  contents : Bytes
deriving Repr, DecidableEq

/-- The tags that occur in keys and certificates. The last ones number the parts of a sequence. -/
def booleanTag : UInt8 := 0x01
def integerTag : UInt8 := 0x02
def bitStringTag : UInt8 := 0x03
def octetStringTag : UInt8 := 0x04
def nameTag : UInt8 := 0x06
def sequenceTag : UInt8 := 0x30
def plainPart1Tag : UInt8 := 0x81
def part0Tag : UInt8 := 0xa0
def part1Tag : UInt8 := 0xa1
def part3Tag : UInt8 := 0xa3

/-- A length below 65536 in its shortest form, and what follows it. -/
def length? : Bytes → Option (Nat × Bytes)
  | [] => none
  | b :: rest =>
    if b < 0x80 then some (b.toNat, rest)
    else
      match b, rest with
      | 0x81, n :: rest => if 0x80 ≤ n then some (n.toNat, rest) else none
      | 0x82, hi :: lo :: rest =>
        if hi ≠ 0 then some (Bytes.be16 hi lo, rest) else none
      | _, _ => none

/-- The element in front, and what follows it. Tags of several bytes are not known. -/
def element? : Bytes → Option (Element × Bytes)
  | [] => none
  | tag :: rest =>
    if tag &&& 0x1f = 0x1f then none
    else
      match length? rest with
      | some (n, rest) => if n ≤ rest.length then some (⟨tag, rest.take n⟩, rest.drop n) else none
      | none => none

theorem length?_length {bs rest : Bytes} {n : Nat} (h : length? bs = some (n, rest)) :
    rest.length ≤ bs.length := by
  unfold length? at h
  split at h
  · simp at h
  · split at h
    · simp only [Option.some.injEq, Prod.mk.injEq] at h
      obtain ⟨-, rfl⟩ := h
      simp
    · split at h
      · split at h
        · simp only [Option.some.injEq, Prod.mk.injEq] at h
          obtain ⟨-, rfl⟩ := h
          simp only [List.length_cons]
          omega
        · simp at h
      · split at h
        · simp only [Option.some.injEq, Prod.mk.injEq] at h
          obtain ⟨-, rfl⟩ := h
          simp only [List.length_cons]
          omega
        · simp at h
      · simp at h

theorem element?_length {bs rest : Bytes} {e : Element} (h : element? bs = some (e, rest)) :
    rest.length < bs.length := by
  unfold element? at h
  split at h
  · simp at h
  · split at h
    · simp at h
    · split at h
      next n r hl =>
        split at h
        · simp only [Option.some.injEq, Prod.mk.injEq] at h
          obtain ⟨-, rfl⟩ := h
          have := length?_length hl
          simp only [List.length_drop, List.length_cons]
          omega
        · simp at h
      · simp at h

abbrev Reader := StateT Bytes Option

def expect (tag : UInt8) : Reader Bytes := fun bs =>
  match element? bs with
  | some (e, rest) => if e.tag = tag then some (e.contents, rest) else none
  | none => none

def whole? {α : Type} (reader : Reader α) (bs : Bytes) : Option α :=
  match reader bs with
  | some (a, []) => some a
  | _ => none

def inside {α : Type} (tag : UInt8) (reader : Reader α) : Reader α := do
  let contents ← expect tag
  fun bs => (whole? reader contents).map (·, bs)

def follows (tag : UInt8) : Reader Bool := fun bs => some (bs.head? == some tag, bs)

/-- The number of big-endian bytes that are its shortest form with a sign bit that is off. -/
def natural? : Bytes → Option Nat
  | [] => none
  | b :: rest =>
    if 0x80 ≤ b ∨ b = 0 ∧ rest ≠ [] ∧ rest.headD 0 < 0x80 then none
    else some (rest.foldl (fun n b => n * 256 + b.toNat) b.toNat)

def natural : Reader Nat := do
  let contents ← expect integerTag
  fun bs => (natural? contents).map (·, bs)

def bits? : Bytes → Option Bytes
  | 0 :: bs => some bs
  | _ => none

/-- A string of bits that fills its bytes, under a tag of its own where that says which one. -/
def bitString (tag : UInt8) : Reader Bytes := do
  let contents ← expect tag
  fun bs => (bits? contents).map (·, bs)

/-- The bytes of an element. Lengths from 65536 on do not occur. -/
def Element.encode (e : Element) : Bytes :=
  let n := e.contents.length
  let length :=
    if n < 0x80 then [UInt8.ofNat n]
    else if n < 0x100 then [0x81, UInt8.ofNat n]
    else 0x82 :: Bytes.ofNat16 n
  e.tag :: (length ++ e.contents)

def magnitude (n : Nat) : Bytes :=
  if _h : n = 0 then [] else magnitude (n / 256) ++ [UInt8.ofNat n]
termination_by n

/-- The element of a number: its shortest form, with a zero in front where the sign bit would be
on. -/
def ofNat (n : Nat) : Element :=
  let bs := magnitude n
  ⟨integerTag, if bs.headD 0x80 < 0x80 then bs else 0 :: bs⟩

end Gatehouse.Tls.Der
