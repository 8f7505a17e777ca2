import Gatehouse.Metrics.Counter
import Gatehouse.Text.Binary64

namespace Gatehouse

/-- The counters that were touched, with their values, and the gauge of active connections once
it was set. -/
structure Metrics where
  counters : List (Counter × Nat)
  active : Option Nat
deriving Repr, DecidableEq

namespace Metrics

def empty : Metrics := ⟨[], none⟩

def counterLimit : Nat := Nat.pow 2 64

def value? (m : Metrics) (c : Counter) : Option Nat := m.counters.lookup c

/-- Adds to a counter; adding nothing touches it all the same. -/
def add (m : Metrics) (c : Counter) (n : Nat) : Metrics :=
  let total := ((m.value? c).getD 0 + n) % counterLimit
  { m with counters := (c, total) :: m.counters.filter fun e => e.1 != c }

def countProbe (m : Metrics) (reason : RejectReason) : Metrics := m.add (.probing reason) 1

def countConnection (m : Metrics) (outcome : ConnectionOutcome) : Metrics :=
  m.add (.connections outcome) 1

def countRotation (m : Metrics) : Metrics := m.add .keyRotations 1

def countRelay (m : Metrics) (sent received : Nat) : Metrics :=
  (m.add (.relayBytes .clientToSite) sent).add (.relayBytes .siteToClient) received

def setActive (m : Metrics) (n : Nat) : Metrics := { m with active := some n }

/-- One line for each series that was touched, in the order of their bytes. -/
def lines (m : Metrics) : List String :=
  let counters := m.counters.map fun (c, n) => s!"{c.name} {n}"
  let gauge := m.active.toList.map fun n =>
    s!"ticket_gate_active_connections {Text.binary64Text n}"
  (counters ++ gauge).mergeSort fun a b => decide (a ≤ b)

@[simp] theorem value?_empty (c : Counter) : empty.value? c = none := rfl

theorem lookup_filter_ne {c d : Counter} (h : d ≠ c) (es : List (Counter × Nat)) :
    (es.filter fun e => e.1 != c).lookup d = es.lookup d := by
  induction es with
  | nil => rfl
  | cons e es ih =>
    obtain ⟨k, v⟩ := e
    by_cases hc : k = c
    · subst hc
      have hd : (d == k) = false := by simpa using h
      simpa [List.lookup_cons, hd] using ih
    · simp [hc, List.lookup_cons, ih]

theorem value?_add (m : Metrics) (c d : Counter) (n : Nat) :
    (m.add c n).value? d =
      if d = c then some (((m.value? c).getD 0 + n) % counterLimit) else m.value? d := by
  simp only [add, value?, List.lookup_cons]
  by_cases h : d = c
  · simp [h]
  · have hb : (d == c) = false := by simpa using h
    simp only [hb, h, if_false, lookup_filter_ne h]

end Metrics
end Gatehouse
