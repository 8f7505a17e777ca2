namespace Gatehouse.Clock

/-- The last instant the clock can tell, as it counts whole seconds with a signed number of 64 bits.
-/
def last : Nat := Nat.pow 2 63 - 1

def later? (now seconds : Nat) : Option Nat :=
  if now + seconds ≤ last then some (now + seconds) else none

theorem later?_eq_none_iff (now seconds : Nat) :
    later? now seconds = none ↔ last < now + seconds := by
  simp [later?]

end Gatehouse.Clock
