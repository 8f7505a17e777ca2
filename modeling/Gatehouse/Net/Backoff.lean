namespace Gatehouse

/-- How many attempts have failed in a row. The count stops at its largest value. Pauses are
milliseconds. -/
structure Backoff where
  failures : Nat
deriving Repr, DecidableEq

namespace Backoff

def baseDelay : Nat := 5

def longestDelay : Nat := 1000

def mostFailures : Nat := Nat.pow 2 32 - 1

def largest : Nat := Nat.pow 2 64 - 1

inductive Fault
  /-- A result is too large, or below zero. -/
  | overflow
  /-- Chance has nothing to draw from. -/
  | emptyRange
deriving Repr, DecidableEq

def add (a b : Nat) : Except Fault Nat := if a + b ≤ largest then .ok (a + b) else .error .overflow

def subtract (a b : Nat) : Except Fault Nat := if b ≤ a then .ok (a - b) else .error .overflow

/-- A number below the bound; which one is up to chance. -/
def draw (bound chance : Nat) : Except Fault Nat :=
  if 0 < bound then .ok (chance % bound) else .error .emptyRange

/-- A power of two, or the largest number if it is larger. -/
def powerOfTwo (n : Nat) : Nat := if n < 64 then Nat.pow 2 n else largest

def doubled (base cap doublings : Nat) : Nat := min (min (base * powerOfTwo doublings) largest) cap

/-- How many values chance can add to a delay; if there is none, nothing is added. -/
def spread (delay : Nat) : Nat := delay / 10

/-- The pause before the next attempt, when so many have failed in a row. -/
def delayFor (base cap attempt chance : Nat) : Except Fault Nat :=
  if attempt = 0 then .ok 0
  else do
    let certain := doubled base cap (← subtract attempt 1)
    let extra ← if 0 < spread certain then draw (spread certain) chance else pure 0
    add certain extra

def start : Backoff := ⟨0⟩

def fail (b : Backoff) : Backoff := ⟨min (b.failures + 1) mostFailures⟩

def succeed (_ : Backoff) : Backoff := start

/-- What happens to an attempt to accept. A failure comes with what chance offers for the pause. -/
inductive Event
  | fail (chance : Nat)
  | succeed
deriving Repr, DecidableEq

/-- A failure is counted and gives the pause to make; a success ends the row of failures. -/
def act (b : Backoff) : Event → Except Fault (Option Nat × Backoff)
  | .fail chance => do
    let pause ← delayFor baseDelay longestDelay b.fail.failures chance
    return (some pause, b.fail)
  | .succeed => .ok (none, b.succeed)

def run (b : Backoff) : List Event → Except Fault (List (Option Nat) × Backoff)
  | [] => .ok ([], b)
  | event :: rest => do
    let (pause, b) ← b.act event
    let (pauses, b) ← b.run rest
    return (pause :: pauses, b)

def certain (b : Backoff) : Nat :=
  if b.failures = 0 then 0 else doubled baseDelay longestDelay (b.failures - 1)

def shortest (b : Backoff) : Nat := b.certain

def longest (b : Backoff) : Nat := b.certain + (spread b.certain - 1)

end Backoff
end Gatehouse
