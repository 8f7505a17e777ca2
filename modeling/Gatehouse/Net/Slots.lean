import Gatehouse.Net.Tracker

namespace Gatehouse

def maxSlots : Nat := Nat.pow 2 61 - 1

/-- An accepted connection, which has a slot; it may be tracked as well. -/
structure Connection where
  number : Nat
  /-- The number of its guard, while it has one. -/
  guardNumber : Option Nat
deriving Repr, DecidableEq

/-- A slot is taken before a connection is accepted and given back when the connection is over. -/
structure Slots where
  max : Nat
  available : Nat
  /-- An accept is under way that has taken its slot. -/
  accepting : Bool
  /-- The connections that have a slot, in the order in which they came. -/
  connections : List Connection
  /-- The number of the next connection. -/
  next : Nat
  tracker : Tracker
deriving Repr, DecidableEq

namespace Slots

def start (max : Nat) : Slots := ⟨max, max, false, [], 0, .start⟩

/-- An accept takes a slot, if one is free. Only one accept is under way at a time. -/
def acquire? (s : Slots) : Option Slots :=
  if s.accepting || s.available == 0 then none
  else some { s with available := s.available - 1, accepting := true }

/-- A connection comes in and has the slot of the accept. -/
def arrive? (s : Slots) : Option Slots :=
  if s.accepting then
    some { s with
      accepting := false, connections := s.connections ++ [⟨s.next, none⟩], next := s.next + 1 }
  else none

/-- The accept fails or is given up, and its slot is free again. -/
def abandon? (s : Slots) : Option Slots :=
  if s.accepting then some { s with accepting := false, available := s.available + 1 } else none

def find? (s : Slots) (number : Nat) : Option Connection :=
  s.connections.find? fun c => c.number == number

def track? (s : Slots) (number : Nat) : Option Slots :=
  match s.find? number with
  | some ⟨_, none⟩ =>
    let (guardNumber, tracker) := s.tracker.track
    some { s with
      tracker := tracker
      connections := s.connections.map fun c =>
        if c.number = number then { c with guardNumber := some guardNumber } else c }
  | _ => none

def untrack? (s : Slots) (number : Nat) : Option Slots :=
  match s.find? number with
  | some ⟨_, some guardNumber⟩ =>
    some { s with
      tracker := s.tracker.untrack guardNumber
      connections := s.connections.map fun c =>
        if c.number = number then { c with guardNumber := none } else c }
  | _ => none

/-- A connection gives its slot back, once it has no guard. -/
def release? (s : Slots) (number : Nat) : Option Slots :=
  match s.find? number with
  | some ⟨_, none⟩ =>
    some { s with
      available := s.available + 1
      connections := s.connections.filter fun c => c.number ≠ number }
  | _ => none

inductive Move
  | acquire
  | arrive
  /-- The accept fails or is cancelled. -/
  | abandon
  | track (number : Nat)
  | untrack (number : Nat)
  | release (number : Nat)
deriving Repr, DecidableEq

def act? (s : Slots) : Move → Option Slots
  | .acquire => s.acquire?
  | .arrive => s.arrive?
  | .abandon => s.abandon?
  | .track number => s.track? number
  | .untrack number => s.untrack? number
  | .release number => s.release? number

end Slots
end Gatehouse
