import Gatehouse.Bytes

namespace Gatehouse.Stream

inductive Fault
  | brokenPipe
  | connectionReset
  /-- The connection was taken away from under the one who uses it. -/
  | handedOver
  /-- More bytes came before the decision than are kept. -/
  | captureLimit
deriving Repr, DecidableEq

def Fault.kind : Fault → String
  | .brokenPipe => "BrokenPipe"
  | .connectionReset => "ConnectionReset"
  | .handedOver => "NotConnected"
  | .captureLimit => "InvalidData"

def Fault.message : Fault → String
  | .brokenPipe => "broken pipe"
  | .connectionReset => "connection reset"
  | .handedOver => "connection handed to reaction"
  | .captureLimit => "client hello exceeds capture limit"

/-- What became of an attempt: it has to wait, it gave something, or it failed. -/
inductive Attempt (α : Type)
  | waiting
  | done (result : α)
  | failed (fault : Fault)
deriving Repr, DecidableEq

inductive PipeState
  | flowing
  /-- The writer has finished, or one of the ends is gone. -/
  | finished
  /-- The connection broke: what is under way is lost. -/
  | reset
deriving Repr, DecidableEq

/-- One direction: the bytes written and not yet read, in order. -/
structure Pipe where
  capacity : Nat
  buffered : Bytes
  state : PipeState
deriving Repr, DecidableEq

namespace Pipe

def empty (capacity : Nat) : Pipe := ⟨capacity, [], .flowing⟩

/-- Reads at most `n` bytes. Nothing at the end of the stream is no failure. -/
def read (pipe : Pipe) (n : Nat) : Attempt Bytes × Pipe :=
  if pipe.state = .reset then (.failed .connectionReset, pipe)
  else if pipe.buffered.isEmpty then
    (if pipe.state = .flowing then .waiting else .done [], pipe)
  else (.done (pipe.buffered.take n), { pipe with buffered := pipe.buffered.drop n })

/-- Writes as many bytes as there is room for, and says how many. -/
def write (pipe : Pipe) (bs : Bytes) : Attempt Nat × Pipe :=
  if pipe.state ≠ .flowing then (.failed .brokenPipe, pipe)
  else
    let room := pipe.capacity - pipe.buffered.length
    if room = 0 then (.waiting, pipe)
    else
      let taken := bs.take room
      (.done taken.length, { pipe with buffered := pipe.buffered ++ taken })

def finish (pipe : Pipe) : Pipe :=
  if pipe.state = .flowing then { pipe with state := .finished } else pipe

def reset (pipe : Pipe) : Pipe := { pipe with buffered := [], state := .reset }

end Pipe

/-- A connection as one of its ends sees it. -/
structure Link where
  inbound : Pipe
  outbound : Pipe
deriving Repr, DecidableEq

namespace Link

def empty (capacity : Nat) : Link := ⟨.empty capacity, .empty capacity⟩

def flip (link : Link) : Link := ⟨link.outbound, link.inbound⟩

def read (link : Link) (n : Nat) : Attempt Bytes × Link :=
  let (result, pipe) := link.inbound.read n
  (result, { link with inbound := pipe })

def write (link : Link) (bs : Bytes) : Attempt Nat × Link :=
  let (result, pipe) := link.outbound.write bs
  (result, { link with outbound := pipe })

/-- Nothing is ever held back on the way. -/
def flush (link : Link) : Attempt Unit × Link := (.done (), link)

def shutdown (link : Link) : Link := { link with outbound := link.outbound.finish }

def drop (link : Link) : Link := ⟨link.inbound.finish, link.outbound.finish⟩

def reset (link : Link) : Link := ⟨link.inbound.reset, link.outbound.reset⟩

def readAll (link : Link) : (Bytes × Bool) × Link :=
  ((link.inbound.buffered, link.inbound.state != .flowing),
    { link with inbound := { link.inbound with buffered := [] } })

@[simp] theorem flip_flip (link : Link) : link.flip.flip = link := rfl

end Link
end Gatehouse.Stream
