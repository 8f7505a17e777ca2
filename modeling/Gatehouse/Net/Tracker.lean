namespace Gatehouse

def pollInterval : Nat := 100

namespace Tracker

/-- Someone who waits until nothing is under way: when the next look is, or when the wait was
over. -/
inductive Waiter
  | waiting (next : Nat)
  | returned (time : Nat)
deriving Repr, DecidableEq

/-- Every look from `next` on up to an instant. -/
def lookFrom (instant : Nat) (idle : Bool) (next : Nat) : Waiter :=
  if next ≤ instant then
    if idle then .returned next else lookFrom instant idle (next + pollInterval)
  else .waiting next
termination_by instant + 1 - next
decreasing_by simp only [pollInterval]; omega

def Waiter.lookUntil (instant : Nat) (idle : Bool) : Waiter → Waiter
  | .returned time => .returned time
  | .waiting next => lookFrom instant idle next

def Waiter.hasReturned : Waiter → Bool
  | .waiting _ => false
  | .returned _ => true

end Tracker

/-- Connections under way, each counted as long as its guard lives. Times are milliseconds. -/
structure Tracker where
  now : Nat
  /-- The count. -/
  active : Nat
  /-- The numbers of the guards that live. -/
  live : List Nat
  /-- The number of the next connection. -/
  next : Nat
  /-- What the gauge of active connections was last set to. -/
  gauge : Option Nat
  waiters : List Tracker.Waiter
deriving Repr, DecidableEq

namespace Tracker

def start : Tracker := ⟨0, 0, [], 0, none, []⟩

/-- What the connection of a number is called everywhere else: one more than its number, as a word. -/
def connectionId (number : Nat) : UInt64 := .ofNat (number + 1)

def connectionName (number : Nat) : String := "conn-" ++ toString (connectionId number)

def track (t : Tracker) : Nat × Tracker :=
  let active := t.active + 1
  (t.next, { t with
    active := active, live := t.live ++ [t.next], next := t.next + 1, gauge := some active })

/-- A guard is dropped. One that lives no more cannot be dropped again. -/
def untrack (t : Tracker) (number : Nat) : Tracker :=
  if t.live.contains number then
    let active := t.active - 1
    { t with active := active, live := t.live.erase number, gauge := some active }
  else t

theorem untrack_of_mem {t : Tracker} {number : Nat} (h : number ∈ t.live) :
    t.untrack number = { t with
      active := t.active - 1, live := t.live.erase number, gauge := some (t.active - 1) } :=
  if_pos (List.contains_iff_mem.mpr h)

/-- Someone begins to wait, with a look at once. -/
def wait (t : Tracker) : Tracker :=
  let waiter := (Waiter.waiting t.now).lookUntil t.now (t.active == 0)
  { t with waiters := t.waiters ++ [waiter] }

def elapse (t : Tracker) (time : Nat) : Tracker :=
  let now := t.now + time
  { t with now := now, waiters := t.waiters.map (·.lookUntil now (t.active == 0)) }

inductive Move
  | track
  | untrack (number : Nat)
  | wait
  | elapse (time : Nat)
deriving Repr, DecidableEq

def act (t : Tracker) : Move → Tracker
  | .track => t.track.2
  | .untrack number => t.untrack number
  | .wait => t.wait
  | .elapse time => t.elapse time

end Tracker

/-- A tracker in the hands of many, who clone their handles from each other. -/
structure SharedTracker where
  tracker : Tracker
  /-- The numbers of the handles that were not given up. -/
  handles : List Nat
  /-- The number of the next handle. -/
  next : Nat
deriving Repr, DecidableEq

namespace SharedTracker

def start : SharedTracker := ⟨.start, [0], 1⟩

inductive Move
  | clone (handle : Nat)
  /-- A handle is given up. -/
  | leave (handle : Nat)
  | track (handle : Nat)
  | drop (number : Nat)
  | wait (handle : Nat)
  | elapse (time : Nat)
deriving Repr, DecidableEq

/-- Only who has a handle can track or begin to wait. Guards and those who wait need no handle. -/
def act? (s : SharedTracker) : Move → Option SharedTracker
  | .clone handle =>
    if s.handles.contains handle then
      some { s with handles := s.handles ++ [s.next], next := s.next + 1 }
    else none
  | .leave handle =>
    if s.handles.contains handle then some { s with handles := s.handles.erase handle } else none
  | .track handle =>
    if s.handles.contains handle then some { s with tracker := s.tracker.track.2 } else none
  | .drop number =>
    if s.tracker.live.contains number then some { s with tracker := s.tracker.untrack number }
    else none
  | .wait handle =>
    if s.handles.contains handle then some { s with tracker := s.tracker.wait } else none
  | .elapse time => some { s with tracker := s.tracker.elapse time }

end SharedTracker
end Gatehouse
