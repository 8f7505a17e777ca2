import Gatehouse.Ticket.Issue
import Gatehouse.Ticket.Keeper

namespace Gatehouse.Ticket

/-- A ring with everything that can be tried on it: rotations, listeners, key lists that somebody
holds on to, tickets, and changes that others make to the disk. -/
structure Workbench where
  keeper : Keeper
  source : Source
  /-- Key lists kept from earlier, in the order in which they were taken. -/
  held : List KeyList
  /-- The tickets issued, in order. -/
  issued : List Bytes

namespace Workbench

inductive Action
  | rotate (fresh : Key)
  | listen
  /-- Keeps the keys in force. -/
  | hold
  | dropHeld
  | issue (iv state : Bytes)
  | redeem (ticket : Bytes)
  /-- Redeems the n-th ticket that was issued. -/
  | redeemIssued (number : Nat)
  /-- Somebody else changes the disk. -/
  | writeFile (path : String) (content : Bytes)
  | removeFile (path : String)
  | removeDirectory (place : Storage.Place)
  | makeDirectory (place : Storage.Place)
  /-- A second ring is set up from the same source. -/
  | reload (fresh : Key)

inductive Answer
  | nothing
  | rotated (done : Bool)
  | issued (ticket : Bytes)
  /-- The state of a ticket, and which of the ring's keys and of the lists held open it. -/
  | redeemed (state : Option Bytes) (byKey byHeld : List Bool)
  | reloaded (result : Except LoadError KeyList)

/-- A ring at work, if it can be set up. -/
def start (source : Source) (fresh : Key) (disk : Storage.Disk) : Except LoadError Workbench :=
  (Ring.load source fresh disk).1.map fun ring =>
    ⟨.start ring (Ring.load source fresh disk).2, source, [], []⟩

def withDisk (w : Workbench) (disk : Storage.Disk) : Workbench :=
  { w with keeper := { w.keeper with disk := disk } }

def redeem (w : Workbench) (ticket : Bytes) : Answer :=
  let keys := w.keeper.ring.keys
  .redeemed (w.keeper.ring.redeem? ticket) (keys.toList.map fun k => (k.open? ticket).isSome)
    (w.held.map fun ks => (ks.open? ticket).isSome)

def act (w : Workbench) : Action → Except Storage.Error (Answer × Workbench)
  | .rotate fresh =>
    let (done, keeper) := w.keeper.rotate fresh
    .ok (.rotated done, { w with keeper := keeper })
  | .listen => .ok (.nothing, { w with keeper := w.keeper.listen })
  | .hold => .ok (.nothing, { w with held := w.held ++ [w.keeper.ring.keys] })
  | .dropHeld => .ok (.nothing, { w with held := [] })
  | .issue iv state =>
    let ticket := w.keeper.ring.issue iv state
    .ok (.issued ticket, { w with issued := w.issued ++ [ticket] })
  | .redeem ticket => .ok (w.redeem ticket, w)
  | .redeemIssued number => .ok (((w.issued[number]?).map w.redeem).getD .nothing, w)
  | .writeFile path content => do
    let disk ← w.keeper.disk.create path
    return (.nothing, w.withDisk (← disk.append path content))
  | .removeFile path => do
    let disk ← w.keeper.disk.remove path
    return (.nothing, w.withDisk disk)
  | .removeDirectory place => .ok (.nothing, w.withDisk (w.keeper.disk.eraseTree place))
  | .makeDirectory place => .ok (.nothing, w.withDisk (w.keeper.disk.set place .directory))
  | .reload fresh =>
    let (ring, disk) := Ring.load w.source fresh w.keeper.disk
    .ok (.reloaded (ring.map Ring.keys), w.withDisk disk)

end Workbench
end Gatehouse.Ticket
