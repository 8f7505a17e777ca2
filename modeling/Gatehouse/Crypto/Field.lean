namespace Gatehouse.Crypto

/-- The `n`-fold of an element: the half of it doubled, and one more where `n` is odd. -/
@[specialize] def multiple {α : Type} (add : α → α → α) (zero : α) (n : Nat) (a : α) : α :=
  if _h : n = 0 then zero
  else
    let half := multiple add zero (n / 2) a
    let twice := add half half
    if n % 2 = 1 then add twice a else twice
termination_by n

def powMod (p a n : Nat) : Nat := multiple (fun x y => x * y % p) (1 % p) n a

/-- The inverse modulo a prime `p`, which is the power with `p - 2` (Fermat); zero has zero. -/
def invMod (p a : Nat) : Nat := powMod p a (p - 2)

def subMod (p a b : Nat) : Nat := (a + (p - b % p)) % p

def divMod (p a b : Nat) : Nat := a * invMod p b % p

end Gatehouse.Crypto
