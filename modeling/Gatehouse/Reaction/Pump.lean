import Gatehouse.Stream.Pipe

namespace Gatehouse

open Gatehouse.Stream

def chunkSize : Nat := 16384

namespace Pump

inductive Ending
  | endOfStream
  | readFailed
  | writeFailed
deriving Repr, DecidableEq

inductive Phase
  | reading
  /-- Of a chunk of `size` bytes, `rest` is still to be written. -/
  | writing (rest : Bytes) (size : Nat)
  | ended (how : Ending)
deriving Repr, DecidableEq

end Pump

/-- One direction of a relay: chunks are read from one stream and written to another, one at a time.
-/
structure Pump where
  phase : Pump.Phase
  /-- The length of all chunks that were written to their end. -/
  counted : Nat
  /-- How many bytes the other stream has taken. -/
  accepted : Nat
deriving Repr, DecidableEq

namespace Pump

def start : Pump := ⟨.reading, 0, 0⟩

def isEnded (pump : Pump) : Bool :=
  match pump.phase with
  | .ended _ => true
  | _ => false

/-- Ends on the reader's account: the writer's stream ends as well. -/
def close (pump : Pump) (how : Ending) (source sink : Pipe) : Pump × Pipe × Pipe :=
  ({ pump with phase := .ended how }, source, sink.finish)

/-- The next read or write, if one is possible. A chunk counts once all of it is written; a write
that fails ends the pump and leaves the writer's stream as it is. -/
def step (pump : Pump) (source sink : Pipe) : Option (Pump × Pipe × Pipe) :=
  match pump.phase with
  | .ended _ => none
  | .reading =>
    match source.read chunkSize with
    | (.waiting, _) => none
    | (.failed _, source) => some (pump.close .readFailed source sink)
    | (.done [], source) => some (pump.close .endOfStream source sink)
    | (.done chunk, source) =>
      some ({ pump with phase := .writing chunk chunk.length }, source, sink)
  | .writing rest size =>
    match sink.write rest with
    | (.waiting, _) => none
    | (.failed _, sink) => some ({ pump with phase := .ended .writeFailed }, source, sink)
    | (.done n, sink) =>
      let accepted := pump.accepted + n
      if n < rest.length then
        some (⟨.writing (rest.drop n) size, pump.counted, accepted⟩, source, sink)
      else some (⟨.reading, pump.counted + size, accepted⟩, source, sink)

/-- A bound on the steps that are left if nobody else does anything. -/
def workLeft (pump : Pump) (source : Pipe) : Nat :=
  3 * source.buffered.length +
    match pump.phase with
    | .ended _ => 0
    | .reading => 1
    | .writing rest _ => rest.length + 2

end Pump
end Gatehouse
