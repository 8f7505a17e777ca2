import Gatehouse.Reaction.Execution
import Gatehouse.Rehearsal.Run

namespace Gatehouse.Rehearsal

open Gatehouse.Stream Gatehouse.Capture

instance : Subject Relay where
  step? := Relay.step?
  timer? relay := if relay.returned then none else relay.deadline
  elapse relay time := { relay with now := relay.now + time }
  isDone relay := relay.returned
  client := Relay.client
  setClient relay link := { relay with client := link }
  site? relay := some relay.site
  setSite relay link := { relay with site := link }

def relay (capacity : Nat) : Relay := .start 0 (.empty capacity) (.empty capacity)

/-- How dialing comes out: after some time there is a connection, or there is none. -/
structure Dial where
  delay : Nat
  failure : Option String
deriving Repr, DecidableEq

structure Reflector where
  execution : Execution
  dial : Dial
  /-- The room of a new connection in either direction. -/
  capacity : Nat
  /-- When the dial under way is answered. -/
  answerAt : Option Nat

namespace Reflector

def isDialing (r : Reflector) : Bool :=
  match r.execution.stage with
  | .dialing _ _ => true
  | _ => false

/-- The answer to a dial. -/
def answer (r : Reflector) : Except String Link :=
  match r.dial.failure with
  | some cause => .error cause
  | none => .ok (.empty r.capacity)

def step? (r : Reflector) : Option Reflector :=
  if r.isDialing then
    match r.answerAt with
    | none => some { r with answerAt := some (r.execution.now + r.dial.delay) }
    | some t =>
      if t ≤ r.execution.now then
        (r.execution.answer? r.answer).map fun e => { r with execution := e }
      else none
  else r.execution.step?.map fun e => { r with execution := e }

def timer? (r : Reflector) : Option Nat :=
  match r.execution.stage with
  | .pausing wake _ => some wake
  | .dialing _ _ => r.answerAt
  | .relaying _ _ relay => relay.deadline
  | _ => none

end Reflector

instance : Subject Reflector where
  step? := Reflector.step?
  timer? := Reflector.timer?
  elapse r time := { r with execution := r.execution.elapse time }
  isDone r := r.execution.result?.isSome
  client r := r.execution.clientLink
  setClient r link := { r with execution := r.execution.setClientLink link }
  site? r := r.execution.siteLink?
  setSite r link := { r with execution := r.execution.setSiteLink link }

/-- A connection whose first bytes were captured and which was then detached, and the pool that
its buffer came from; none if the bytes do not fit. -/
def detached? (sent : Bytes) (capacity : Nat) : Option (Detached × Pool) :=
  let (buffer, pool) := (Pool.empty 2).acquire
  let (_, socket) := (Link.empty (max capacity sent.length)).actFar (.write sent)
  match (Intercept.new socket buffer).read sent.length with
  | (.failed _, _) => none
  | (_, intercept) => intercept.detach.1.map (·, pool)

def reflector? (reaction : Reaction) (sent : Bytes) (capacity : Nat) (clientGone : Bool)
    (dial : Dial) : Option Reflector :=
  (detached? sent capacity).map fun (detached, pool) =>
    let client := if clientGone then (detached.socket.actFar .drop).2 else detached.socket
    ⟨.start reaction client detached.capture pool .empty, dial, capacity, none⟩

end Gatehouse.Rehearsal
