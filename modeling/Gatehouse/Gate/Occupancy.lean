import Gatehouse.Net.Slots

namespace Gatehouse

/-- What a connection has as long as it is under way. -/
inductive Part
  | slot
  | guard
deriving Repr, DecidableEq

namespace Part

/-- What a task is given, in order. When the task is over they go from the last to the first. -/
def parameters : List Part := [.slot, .guard]

/-- What an accepted connection consists of, in order. They go from the first to the last. -/
def fields : List Part := [.guard, .slot]

end Part

namespace Occupancy

inductive Stage
  | spawned
  /-- The exchange before TLS, if there is one. -/
  | negotiating
  /-- The hello is waited for and judged. -/
  | deciding
  /-- The handshake goes on. -/
  | completing
  | reacting
deriving Repr, DecidableEq

/-- Where an accepted connection is. -/
inductive Place
  /-- It waits for room in the queue. -/
  | sending
  | queued
  | delivered
deriving Repr, DecidableEq

inductive Holder
  | task (stage : Stage)
  | accepted (place : Place)
  /-- It is being dropped, and this is still to go. -/
  | leaving (rest : List Part)
deriving Repr, DecidableEq

namespace Holder

/-- What a holder drops, in order. -/
def parts : Holder → List Part
  | .task _ => Part.parameters.reverse
  | .accepted _ => Part.fields
  | .leaving rest => rest

def leave (holder : Holder) : Holder := .leaving holder.parts

end Holder

inductive Step
  | begin
  /-- The exchange before TLS is over, and it may go on. -/
  | proceed
  | letThrough
  | reject
  /-- The handshake succeeds. -/
  | finish
  /-- The task is over and has nothing to hand on: it was refused, its handshake failed or took too
  long, its reaction is over, or it broke off. -/
  | conclude
  | enqueue
  /-- There is nobody any more who takes accepted connections. -/
  | bounce
  | deliver
  /-- Whoever has taken an accepted connection drops it. -/
  | discard
deriving Repr, DecidableEq

def Holder.step? : Holder → Step → Option Holder
  | .task .spawned, .begin => some (.task .negotiating)
  | .task .negotiating, .proceed => some (.task .deciding)
  | .task .deciding, .letThrough => some (.task .completing)
  | .task .deciding, .reject => some (.task .reacting)
  | .task .completing, .finish => some (.accepted .sending)
  -- Nothing ends a task before its first turn but the end of the whole program, which drops it with
  -- the loop, the queue and the slots themselves.
  | .task .spawned, .conclude => none
  | .task stage, .conclude => some (Holder.task stage).leave
  | .accepted .sending, .conclude => some (Holder.accepted .sending).leave
  | .accepted .sending, .enqueue => some (.accepted .queued)
  | .accepted .sending, .bounce => some (Holder.accepted .sending).leave
  | .accepted .queued, .deliver => some (.accepted .delivered)
  | .accepted .delivered, .discard => some (Holder.accepted .delivered).leave
  | _, _ => none

/-- What the accept loop does. -/
inductive Loop
  | idle
  /-- An accept is under way and has its slot. -/
  | accepting
  /-- A connection has come in and has no guard yet. -/
  | greeting
  | ended
deriving Repr, DecidableEq

/-- The most accepted connections that wait to be taken. -/
def queueDepth : Nat := 64

/-- The accept loop, and those who hold a connection, by the numbers of the connections. An accept
has the slot until a connection comes in, which then goes to a task of its own, and if its handshake
succeeds to whoever takes accepted connections. -/
structure Hands where
  loop : Loop
  holders : List Holder
  /-- Nobody takes accepted connections any more. -/
  hungUp : Bool
deriving Repr, DecidableEq

/-- What happens to slots and guards. -/
inductive Event
  | acquired
  | abandoned
  | arrived (number : Nat)
  | tracked (number : Nat)
  | untracked (number : Nat)
  | released (number : Nat)
deriving Repr, DecidableEq

def Event.toMove : Event → Slots.Move
  | .acquired => .acquire
  | .abandoned => .abandon
  | .arrived _ => .arrive
  | .tracked number => .track number
  | .untracked number => .untrack number
  | .released number => .release number

def dropped (number : Nat) : Part → Event
  | .slot => .released number
  | .guard => .untracked number

inductive Move
  | acquire
  /-- The accept fails. -/
  | abandon
  | arrive
  /-- The connection that came in gets its guard and its task. -/
  | track
  /-- The loop ends, and an accept that is under way is cancelled. -/
  | stop
  | advance (number : Nat) (step : Step)
  /-- What waits in the queue is dropped, and nothing more gets there. -/
  | hangUp
  /-- The next part of a connection that is being dropped. -/
  | drop (number : Nat)
deriving Repr, DecidableEq

namespace Hands

def start : Hands := ⟨.idle, [], false⟩

/-- Whether the queue allows a step. -/
def allows (hands : Hands) : Step → Bool
  | .enqueue => !hands.hungUp && hands.holders.count (.accepted .queued) < queueDepth
  | .bounce => hands.hungUp
  | _ => true

def act? (hands : Hands) : Move → Option (List Event × Hands)
  | .acquire =>
    if hands.loop = .idle then some ([.acquired], { hands with loop := .accepting }) else none
  | .abandon =>
    if hands.loop = .accepting then some ([.abandoned], { hands with loop := .idle }) else none
  | .arrive =>
    if hands.loop = .accepting then
      some ([.arrived hands.holders.length], { hands with loop := .greeting })
    else none
  | .track =>
    if hands.loop = .greeting then
      some ([.tracked hands.holders.length],
        { hands with loop := .idle, holders := hands.holders ++ [.task .spawned] })
    else none
  | .stop =>
    match hands.loop with
    | .idle => some ([], { hands with loop := .ended })
    | .accepting => some ([.abandoned], { hands with loop := .ended })
    | _ => none
  | .advance number step => do
    let holder ← hands.holders[number]?
    let holder ← holder.step? step
    if hands.allows step then
      some ([], { hands with holders := hands.holders.set number holder })
    else none
  | .hangUp =>
    if hands.hungUp then none
    else
      some ([], { hands with
        hungUp := true
        holders := hands.holders.map fun holder =>
          if holder = .accepted .queued then holder.leave else holder })
  | .drop number =>
    match hands.holders[number]? with
    | some (.leaving (part :: rest)) =>
      some ([dropped number part],
        { hands with holders := hands.holders.set number (.leaving rest) })
    | _ => none

end Hands
end Occupancy

structure Occupancy where
  hands : Occupancy.Hands
  slots : Slots
deriving Repr, DecidableEq

namespace Occupancy

def start (max : Nat) : Occupancy := ⟨.start, .start max⟩

def act? (o : Occupancy) (move : Move) : Option (List Event × Occupancy) := do
  let (events, hands) ← o.hands.act? move
  let slots ← events.foldlM (fun slots event => slots.act? event.toMove) o.slots
  return (events, ⟨hands, slots⟩)

def run? (o : Occupancy) : List Move → Option (List Event × Occupancy)
  | [] => some ([], o)
  | move :: rest => do
    let (events, o) ← o.act? move
    let (later, last) ← o.run? rest
    return (events ++ later, last)

end Occupancy
end Gatehouse
