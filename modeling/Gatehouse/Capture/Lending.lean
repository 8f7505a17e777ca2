import Gatehouse.Capture.Pool

namespace Gatehouse.Capture

/-- A pool and the buffers lent from it; those that were given back leave an empty place. -/
structure Lending where
  pool : Pool
  lent : List (Option Buffer)
deriving Repr, DecidableEq

namespace Lending

inductive Action
  | acquire
  /-- Puts bytes behind those that a buffer holds. -/
  | extend (number : Nat) (bs : Bytes)
  | read (number : Nat)
  /-- Gives a buffer back. -/
  | release (number : Nat)
  /-- Gives a buffer back and keeps its bytes. -/
  | copyOut (number : Nat)
deriving Repr, DecidableEq

inductive Answer
  | nothing
  /-- How many bytes a buffer holds. -/
  | size (n : Nat)
  | contents (bs : Bytes)
deriving Repr, DecidableEq

/-- Nothing is lent yet. -/
def start? (maxPooled : Nat) : Option Lending := (Pool.start? maxPooled).map (⟨·, []⟩)

def find? (l : Lending) (number : Nat) : Option Buffer := (l.lent[number]?).join

def giveBack (l : Lending) (number : Nat) (buffer : Buffer) : Lending :=
  ⟨l.pool.release buffer, l.lent.set number none⟩

def act? (l : Lending) : Action → Option (Answer × Lending)
  | .acquire =>
    let (buffer, pool) := l.pool.acquire
    some (.size buffer.bytes.length, ⟨pool, l.lent ++ [some buffer]⟩)
  | .extend number bs => (l.find? number).map fun buffer =>
    let buffer := buffer.extend bs
    (.size buffer.bytes.length, { l with lent := l.lent.set number (some buffer) })
  | .read number => (l.find? number).map fun buffer => (.contents buffer.bytes, l)
  | .release number => (l.find? number).map fun buffer => (.nothing, l.giveBack number buffer)
  | .copyOut number => (l.find? number).map fun buffer =>
    (.contents buffer.bytes, l.giveBack number buffer)

end Lending
end Gatehouse.Capture
