namespace Gatehouse

abbrev Bytes := List UInt8

namespace Bytes

def be16 (hi lo : UInt8) : Nat := hi.toNat * 256 + lo.toNat

def be24 (a b c : UInt8) : Nat := a.toNat * 65536 + b.toNat * 256 + c.toNat

/-- Two big-endian bytes; numbers from 65536 on wrap. -/
def ofNat16 (n : Nat) : Bytes := [UInt8.ofNat (n / 256), UInt8.ofNat n]

def ofNat24 (n : Nat) : Bytes := [UInt8.ofNat (n / 65536), UInt8.ofNat (n / 256), UInt8.ofNat n]

def ofString (s : String) : Bytes := s.toUTF8.toList

def toString? (bs : Bytes) : Option String := String.fromUTF8? ⟨bs.toArray⟩

/-- The bytes cut into pieces of `n`; a shorter rest at the end is left out. -/
def chunks (n : Nat) (bs : Bytes) : List Bytes :=
  if _h : 0 < n ∧ (bs.take n).length = n then bs.take n :: chunks n (bs.drop n) else []
termination_by bs.length
decreasing_by
  have := _h.2
  simp only [List.length_take, List.length_drop] at this ⊢
  omega

theorem be16_lt (hi lo : UInt8) : be16 hi lo < 65536 := by
  have := hi.toNat_lt
  have := lo.toNat_lt
  simp only [be16]
  omega

theorem be24_lt (a b c : UInt8) : be24 a b c < 16777216 := by
  have := a.toNat_lt
  have := b.toNat_lt
  have := c.toNat_lt
  simp only [be24]
  omega

theorem be16_ofNat (n : Nat) (h : n < 65536) :
    be16 (UInt8.ofNat (n / 256)) (UInt8.ofNat n) = n := by
  simp only [be16, UInt8.toNat_ofNat']
  omega

end Bytes
end Gatehouse
