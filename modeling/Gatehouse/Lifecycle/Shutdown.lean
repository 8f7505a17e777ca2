namespace Gatehouse

/-- The signal to shut down, a flag together with a channel: whoever subscribes gets every message
that is sent from then on. -/
structure Shutdown where
  /-- The flag. -/
  triggered : Bool
  /-- How many messages were sent. -/
  sent : Nat
deriving Repr, DecidableEq

/-- A subscription: how many messages were sent before those that are still to be received. -/
structure Receiver where
  position : Nat
deriving Repr, DecidableEq

namespace Shutdown

def start : Shutdown := ⟨false, 0⟩

def subscribe (s : Shutdown) : Receiver := ⟨s.sent⟩

def hasMessage (s : Shutdown) (r : Receiver) : Bool := r.position < s.sent

def receive? (s : Shutdown) (r : Receiver) : Option Receiver :=
  if s.hasMessage r then some ⟨r.position + 1⟩ else none

/-- Someone who triggers: first the flag is set, then, if it was not set before, a message is
sent. -/
inductive Trigger
  | idle
  | swapped (first : Bool)
  | done
deriving Repr, DecidableEq

def Trigger.step? (s : Shutdown) : Trigger → Option (Shutdown × Trigger)
  | .idle => some ({ s with triggered := true }, .swapped !s.triggered)
  | .swapped true => some ({ s with sent := s.sent + 1 }, .done)
  | .swapped false => some (s, .done)
  | .done => none

/-- Someone who waits: subscribes, looks at the flag, and if it is not set waits for a message. -/
inductive Waiter
  | idle
  | subscribed (receiver : Receiver)
  | waiting (receiver : Receiver)
  | returned
deriving Repr, DecidableEq

def Waiter.step? (s : Shutdown) : Waiter → Option Waiter
  | .idle => some (.subscribed s.subscribe)
  | .subscribed r => some (if s.triggered then .returned else .waiting r)
  | .waiting r => (s.receive? r).map fun _ => .returned
  | .returned => none

def Waiter.hasReturned : Waiter → Bool
  | .returned => true
  | _ => false

/-- A waiter takes all steps it can take while nobody else does anything. -/
def Waiter.settle (s : Shutdown) (w : Waiter) : Waiter :=
  let next (w : Waiter) := (w.step? s).getD w
  next (next (next w))

def trigger (s : Shutdown) : Shutdown :=
  if s.triggered then s else ⟨true, s.sent + 1⟩

structure Crowd where
  shutdown : Shutdown
  waiters : List Waiter
  triggers : List Trigger
deriving Repr, DecidableEq

inductive Move
  | beginWait
  | beginTrigger
  | stepWaiter (index : Nat)
  | stepTrigger (index : Nat)
deriving Repr, DecidableEq

namespace Crowd

def start : Crowd := ⟨.start, [], []⟩

def act? (c : Crowd) : Move → Option Crowd
  | .beginWait => some { c with waiters := c.waiters ++ [.idle] }
  | .beginTrigger => some { c with triggers := c.triggers ++ [.idle] }
  | .stepWaiter i => do
    let w ← c.waiters[i]?
    let w ← w.step? c.shutdown
    return { c with waiters := c.waiters.set i w }
  | .stepTrigger i => do
    let t ← c.triggers[i]?
    let (s, t) ← t.step? c.shutdown
    return { c with shutdown := s, triggers := c.triggers.set i t }

def settle (c : Crowd) : Crowd := { c with waiters := c.waiters.map (·.settle c.shutdown) }

end Crowd
end Shutdown
end Gatehouse
