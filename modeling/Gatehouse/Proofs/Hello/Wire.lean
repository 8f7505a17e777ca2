import Gatehouse.Hello.Fields

namespace Gatehouse

theorem except_bind_eq_ok_iff {ε α β : Type} {x : Except ε α} {f : α → Except ε β} {b : β} :
    (x >>= f) = .ok b ↔ ∃ a, x = .ok a ∧ f a = .ok b := by
  cases x with
  | error e => simp [bind, Except.bind]
  | ok a => simp [bind, Except.bind]

theorem except_map_eq_ok_iff {ε α β : Type} {x : Except ε α} {f : α → β} {b : β} :
    f <$> x = .ok b ↔ ∃ a, x = .ok a ∧ f a = b := by
  cases x with
  | error e => simp [Functor.map, Except.map]
  | ok a => simp [Functor.map, Except.map]

/-- What a check lets through. -/
theorem checked_eq_ok_iff {ε α β : Type} {c : Prop} [Decidable c] {e : ε} {f : α → Except ε β}
    {x : Except ε β} {b : β} :
    (if c then throw e >>= f else x) = .ok b ↔ ¬ c ∧ x = .ok b := by
  split
  · simp [*, throw, throwThe, MonadExceptOf.throw, bind, Except.bind]
  · simp [*]

namespace Bytes

/-- Bytes behind their length in one byte. -/
def prefixed8 (bs : Bytes) : Bytes := UInt8.ofNat bs.length :: bs

/-- Bytes behind their length in two bytes. -/
def prefixed16 (bs : Bytes) : Bytes := ofNat16 bs.length ++ bs

@[simp] theorem length_ofNat16 (n : Nat) : (ofNat16 n).length = 2 := rfl

@[simp] theorem length_ofNat24 (n : Nat) : (ofNat24 n).length = 3 := rfl

@[simp] theorem length_prefixed8 (bs : Bytes) : (prefixed8 bs).length = bs.length + 1 := rfl

@[simp] theorem length_prefixed16 (bs : Bytes) : (prefixed16 bs).length = bs.length + 2 := by
  simp [prefixed16]
  omega

theorem ofNat16_be16 (hi lo : UInt8) : ofNat16 (be16 hi lo) = [hi, lo] := by
  have hhi : (hi.toNat * 256 + lo.toNat) / 256 = hi.toNat := by have := lo.toNat_lt; omega
  have hlo : UInt8.ofNat (hi.toNat * 256 + lo.toNat) = lo := by
    apply UInt8.toNat_inj.mp
    have := lo.toNat_lt
    simp only [UInt8.toNat_ofNat']
    omega
  simp only [ofNat16, be16, hhi, hlo, UInt8.ofNat_toNat]

theorem ofNat24_be24 (a b c : UInt8) : ofNat24 (be24 a b c) = [a, b, c] := by
  have hb := b.toNat_lt
  have hc := c.toNat_lt
  have ha : (a.toNat * 65536 + b.toNat * 256 + c.toNat) / 65536 = a.toNat := by omega
  have hmid : UInt8.ofNat ((a.toNat * 65536 + b.toNat * 256 + c.toNat) / 256) = b := by
    apply UInt8.toNat_inj.mp
    simp only [UInt8.toNat_ofNat']
    omega
  have hlast : UInt8.ofNat (a.toNat * 65536 + b.toNat * 256 + c.toNat) = c := by
    apply UInt8.toNat_inj.mp
    simp only [UInt8.toNat_ofNat']
    omega
  simp only [ofNat24, be24, ha, hmid, hlast, UInt8.ofNat_toNat]

/-- Every number of three bytes is written and read back. -/
theorem be24_ofNat (n : Nat) (h : n < 16777216) :
    be24 (UInt8.ofNat (n / 65536)) (UInt8.ofNat (n / 256)) (UInt8.ofNat n) = n := by
  simp only [be24, UInt8.toNat_ofNat']
  omega

theorem toNat_ofNat_be16 (hi lo : UInt8) : (UInt16.ofNat (be16 hi lo)).toNat = be16 hi lo := by
  have := be16_lt hi lo
  simp only [UInt16.toNat_ofNat']
  omega

end Bytes

namespace Hello
open Bytes

theorem byte_eq_ok_iff {part : Part} {bs rest : Bytes} {b : UInt8} :
    byte part bs = .ok (b, rest) ↔ bs = b :: rest := by
  cases bs with
  | nil => simp [byte]
  | cons c cs => simp [byte]

/-- A number of two bytes is read off its written form and off nothing else. -/
theorem number16_eq_ok_iff_written {part : Part} {bs rest : Bytes} {n : Nat} :
    number16 part bs = .ok (n, rest) ↔ n < 65536 ∧ bs = ofNat16 n ++ rest := by
  rw [number16_eq_ok_iff]
  constructor
  · intro hall
    obtain ⟨hi, lo, rfl, rfl⟩ := hall
    exact ⟨be16_lt hi lo, by simp [ofNat16_be16]⟩
  · intro hall
    obtain ⟨hn, rfl⟩ := hall
    exact ⟨_, _, rfl, be16_ofNat n hn⟩

theorem number24_ofNat24 {n : Nat} (hn : n < 16777216) (part : Part) (rest : Bytes) :
    number24 part (ofNat24 n ++ rest) = .ok (n, rest) := by
  have hsize := be24_ofNat n hn
  simp only [ofNat24, List.cons_append, List.nil_append, number24, hsize]

theorem block8_eq_ok_iff {part : Part} {bs front rest : Bytes} :
    block8 part bs = .ok (front, rest) ↔ front.length < 256 ∧ bs = prefixed8 front ++ rest := by
  simp only [block8, except_bind_eq_ok_iff, Prod.exists, byte_eq_ok_iff, take_eq_ok_iff]
  constructor
  · intro hall
    obtain ⟨n, tail, rfl, rfl, hlen⟩ := hall
    exact ⟨hlen ▸ n.toNat_lt, by simp [prefixed8, hlen]⟩
  · intro hall
    obtain ⟨hlen, rfl⟩ := hall
    refine ⟨UInt8.ofNat front.length, front ++ rest, rfl, rfl, ?_⟩
    simp only [UInt8.toNat_ofNat']
    omega

theorem block16_eq_ok_iff {part : Part} {bs front rest : Bytes} :
    block16 part bs = .ok (front, rest) ↔
      front.length < 65536 ∧ bs = prefixed16 front ++ rest := by
  simp only [block16, except_bind_eq_ok_iff, Prod.exists, number16_eq_ok_iff_written,
    take_eq_ok_iff]
  constructor
  · intro hall
    obtain ⟨n, tail, ⟨hn, rfl⟩, rfl, rfl⟩ := hall
    exact ⟨hn, by simp [prefixed16]⟩
  · intro hall
    obtain ⟨hlen, rfl⟩ := hall
    exact ⟨front.length, front ++ rest, ⟨hlen, by simp [prefixed16]⟩, rfl, rfl⟩

end Hello
end Gatehouse
