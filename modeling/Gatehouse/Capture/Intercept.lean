import Gatehouse.Capture.Pool
import Gatehouse.Stream.Pipe

namespace Gatehouse.Capture

open Gatehouse.Stream

/-- The most bytes that are kept before the decision. -/
def maxCapture : Nat := 65536

/-- How far the interception has come. It only ever moves forward. -/
inductive Phase
  | unread
  | buffering
  | helloCaptured
  | passthrough
deriving Repr, DecidableEq

namespace Phase

def rank : Phase → Nat
  | .unread => 0
  | .buffering => 1
  | .helloCaptured => 2
  | .passthrough => 3

def name : Phase → String
  | .unread => "Unread"
  | .buffering => "Buffering"
  | .helloCaptured => "HelloCaptured"
  | .passthrough => "Passthrough"

def advance (phase next : Phase) : Phase := if phase.rank < next.rank then next else phase

theorem rank_le_advance (phase next : Phase) : phase.rank ≤ (phase.advance next).rank := by
  unfold advance
  split <;> omega

end Phase

/-- The socket until it is taken away, and the capture buffer until it is. -/
structure Intercept where
  socket : Option Link
  phase : Phase
  capture : Option Buffer
deriving Repr, DecidableEq

/-- What a rejected connection leaves: its socket, and what was captured from it. -/
structure Detached where
  socket : Link
  capture : Option Buffer
deriving Repr, DecidableEq

def captured (capture : Option Buffer) : Bytes := (capture.map Buffer.bytes).getD []

namespace Intercept

def new (socket : Link) (buffer : Buffer) : Intercept := ⟨some socket, .unread, some buffer⟩

/-- Keeps freshly read bytes while the decision is open. Bytes beyond the limit are lost. -/
def keep (connection : Intercept) (fresh : Bytes) : Attempt Bytes × Intercept :=
  match connection.phase, connection.capture with
  | .buffering, some buffer =>
    if maxCapture < buffer.bytes.length + fresh.length then (.failed .captureLimit, connection)
    else (.done fresh, { connection with capture := some (buffer.extend fresh) })
  | _, _ => (.done fresh, connection)

/-- The library reads at most `n` bytes, which are kept for the decision while it is open. -/
def read (connection : Intercept) (n : Nat) : Attempt Bytes × Intercept :=
  match connection.socket with
  | none => (.done [], connection)
  | some socket =>
    let connection := { connection with phase := connection.phase.advance .buffering }
    match socket.read n with
    | (.done fresh, socket) => { connection with socket := some socket }.keep fresh
    | (.waiting, socket) => (.waiting, { connection with socket := some socket })
    | (.failed fault, socket) => (.failed fault, { connection with socket := some socket })

/-- The library writes. Before the decision everything is taken and nothing is sent. -/
def write (connection : Intercept) (bs : Bytes) : Attempt Nat × Intercept :=
  if connection.phase ≠ .passthrough then (.done bs.length, connection)
  else
    match connection.socket with
    | none => (.failed .handedOver, connection)
    | some socket =>
      let (result, socket) := socket.write bs
      (result, { connection with socket := some socket })

/-- The library flushes. Before the decision, and once the socket is gone, there is nothing to do. -/
def flush (connection : Intercept) : Attempt Unit × Intercept :=
  if connection.phase ≠ .passthrough then (.done (), connection)
  else
    match connection.socket with
    | none => (.done (), connection)
    | some socket =>
      let (result, socket) := socket.flush
      (result, { connection with socket := some socket })

def shutdown (connection : Intercept) : Attempt Unit × Intercept :=
  if connection.phase ≠ .passthrough then (.done (), connection)
  else (.done (), { connection with socket := connection.socket.map Link.shutdown })

/-- Shows the captured bytes, once. -/
def inspect (connection : Intercept) : Option Bytes × Intercept :=
  if Phase.helloCaptured.rank ≤ connection.phase.rank then (none, connection)
  else
    (some (captured connection.capture), { connection with phase := .helloCaptured })

/-- Lets everything through from now on and gives up the capture buffer. -/
def passThrough (connection : Intercept) : Option Buffer × Intercept :=
  (connection.capture, { connection with phase := .passthrough, capture := none })

/-- Takes the socket and the captured bytes away from the library, once. -/
def detach (connection : Intercept) : Option Detached × Intercept :=
  match connection.socket with
  | none => (none, { connection with phase := .passthrough })
  | some socket => (some ⟨socket, connection.capture⟩, ⟨none, .passthrough, none⟩)

end Intercept
end Gatehouse.Capture
