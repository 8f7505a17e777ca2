import Gatehouse.Bytes

namespace Gatehouse.Capture

def initialCapacity : Nat := 2048

def maxKeptCapacity : Nat := 16384

/-- A buffer and its room, which grows with what is put in and never shrinks. -/
structure Buffer where
  bytes : Bytes
  capacity : Nat
deriving Repr, DecidableEq

namespace Buffer

def new : Buffer := ⟨[], initialCapacity⟩

/-- Adds bytes at the end. Room that runs out is doubled at least. -/
def extend (buffer : Buffer) (bs : Bytes) : Buffer :=
  let needed := buffer.bytes.length + bs.length
  { bytes := buffer.bytes ++ bs
    capacity :=
      if needed ≤ buffer.capacity then buffer.capacity else max (2 * buffer.capacity) needed }

def clear (buffer : Buffer) : Buffer := { buffer with bytes := [] }

end Buffer

/-- Idle buffers, the one released last in front. -/
structure Pool where
  maxPooled : Nat
  idle : List Buffer
deriving Repr, DecidableEq

namespace Pool

def empty (maxPooled : Nat) : Pool := ⟨maxPooled, []⟩

/-- The places that fit into memory. A place is three words of eight bytes, and no more than
2^63 - 1 bytes can be asked for in one piece. -/
def maxPlaces : Nat := (Nat.pow 2 63 - 1) / 24

def start? (maxPooled : Nat) : Option Pool :=
  if maxPooled ≤ maxPlaces then some (.empty maxPooled) else none

def acquire (pool : Pool) : Buffer × Pool :=
  match pool.idle with
  | b :: rest => (b, { pool with idle := rest })
  | [] => (.new, pool)

/-- Takes a buffer back, emptied. One that grew too large, or for which there is no place, goes. -/
def release (pool : Pool) (buffer : Buffer) : Pool :=
  if buffer.capacity ≤ maxKeptCapacity ∧ pool.idle.length < pool.maxPooled then
    { pool with idle := buffer.clear :: pool.idle }
  else pool

def releaseAny (pool : Pool) : Option Buffer → Pool
  | some b => pool.release b
  | none => pool

end Pool
end Gatehouse.Capture
