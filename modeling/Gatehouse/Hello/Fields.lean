import Gatehouse.Hello.Basic

namespace Gatehouse.Hello

/-- The first `n` bytes and the rest. Each reader names the part that is cut short. -/
def take (n : Nat) (part : Part) (bs : Bytes) : Except Error (Bytes × Bytes) :=
  if n ≤ bs.length then .ok (bs.take n, bs.drop n) else .error (.truncated part)

def byte (part : Part) : Bytes → Except Error (UInt8 × Bytes)
  | b :: rest => .ok (b, rest)
  | [] => .error (.truncated part)

def number16 (part : Part) : Bytes → Except Error (Nat × Bytes)
  | hi :: lo :: rest => .ok (Bytes.be16 hi lo, rest)
  | _ => .error (.truncated part)

def number24 (part : Part) : Bytes → Except Error (Nat × Bytes)
  | a :: b :: c :: rest => .ok (Bytes.be24 a b c, rest)
  | _ => .error (.truncated part)

def block8 (part : Part) (bs : Bytes) : Except Error (Bytes × Bytes) := do
  let (n, rest) ← byte part bs
  take n.toNat part rest

def block16 (part : Part) (bs : Bytes) : Except Error (Bytes × Bytes) := do
  let (n, rest) ← number16 part bs
  take n part rest

theorem take_eq_ok_iff {n : Nat} {part : Part} {bs front rest : Bytes} :
    take n part bs = .ok (front, rest) ↔ bs = front ++ rest ∧ front.length = n := by
  unfold take
  split
  next h =>
    simp only [Except.ok.injEq, Prod.mk.injEq]
    constructor
    · rintro ⟨rfl, rfl⟩
      simp [h]
    · rintro ⟨rfl, rfl⟩
      simp
  next h =>
    simp only [reduceCtorEq, false_iff, not_and]
    rintro rfl rfl
    simp at h

theorem number16_eq_ok_iff {part : Part} {bs rest : Bytes} {n : Nat} :
    number16 part bs = .ok (n, rest) ↔ ∃ hi lo, bs = hi :: lo :: rest ∧ Bytes.be16 hi lo = n := by
  unfold number16
  split
  next hi lo rest' =>
    simp only [Except.ok.injEq, Prod.mk.injEq, List.cons.injEq]
    constructor
    · rintro ⟨rfl, rfl⟩
      exact ⟨hi, lo, ⟨rfl, rfl, rfl⟩, rfl⟩
    · rintro ⟨_, _, ⟨rfl, rfl, rfl⟩, rfl⟩
      exact ⟨rfl, rfl⟩
  next h =>
    simp only [reduceCtorEq, false_iff, not_exists, not_and]
    rintro hi lo rfl
    exact absurd rfl (h hi lo rest)

theorem block16_length {part : Part} {bs front rest : Bytes}
    (h : block16 part bs = .ok (front, rest)) : bs.length = front.length + rest.length + 2 := by
  unfold block16 at h
  cases hn : number16 part bs with
  | error e => simp [hn, bind, Except.bind] at h
  | ok p =>
    obtain ⟨n, r⟩ := p
    simp only [hn, bind, Except.bind] at h
    obtain ⟨hi, lo, rfl, rfl⟩ := number16_eq_ok_iff.1 hn
    obtain ⟨rfl, -⟩ := take_eq_ok_iff.1 h
    simp

end Gatehouse.Hello
