import Gatehouse.Metrics.Basic
import Gatehouse.Ticket.Ring

namespace Gatehouse.Ticket

/-- A ring at work: the disk its file is on, those who listen for rotations, and the counters. -/
structure Keeper where
  ring : Ring
  disk : Storage.Disk
  /-- How many listeners are registered; they are numbered in the order of registration. -/
  listeners : Nat
  /-- What listeners were told, in the order of the calls: the listener's number and the keys. -/
  notices : List (Nat × KeyList)
  metrics : Metrics

namespace Keeper

/-- A ring that nobody listens to yet. -/
def start (ring : Ring) (disk : Storage.Disk) : Keeper := ⟨ring, disk, 0, [], .empty⟩

def listen (keeper : Keeper) : Keeper := { keeper with listeners := keeper.listeners + 1 }

/-- The disk after the ring's keys were written to its file, as far as the steps succeed. -/
def written (fails : Nat → Option Storage.Error) (ring : Ring) (disk : Storage.Disk) :
    Storage.Disk :=
  match ring.mode with
  | .inMemory => disk
  | .file path _ =>
    (Storage.runSteps fails path (Storage.replacement [ring.keys.toBytes]) disk).2

/-- One rotation, and whether there was something to rotate into. The new keys are in force,
counted and reported even if the file could not be written. -/
def rotateWith (fails : Nat → Option Storage.Error) (fresh : Key) (keeper : Keeper) :
    Bool × Keeper :=
  match keeper.ring.next? fresh with
  | none => (false, keeper)
  | some ring =>
    (true, {
      ring := ring
      disk := written fails ring keeper.disk
      listeners := keeper.listeners
      notices := keeper.notices ++ (List.range keeper.listeners).map (·, ring.keys)
      metrics := keeper.metrics.countRotation })

def rotate (fresh : Key) (keeper : Keeper) : Bool × Keeper :=
  keeper.rotateWith Storage.noFailure fresh

end Keeper
end Gatehouse.Ticket
