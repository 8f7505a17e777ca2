import Gatehouse.KeyTool.Run

namespace Gatehouse.KeyTool

open Gatehouse.Ticket

inductive Party
  | gate
  | run (number : Nat)
deriving Repr, DecidableEq

/-- A key file, and those who have loaded it. Each of them rotates the keys that it has in memory
and writes all of them to the file. Nobody looks at the file again before it writes, and nobody is
kept from writing. -/
structure SharedFile where
  disk : Storage.Disk
  keepers : Party → Option Keeper

namespace SharedFile

def untouched (disk : Storage.Disk) : SharedFile := ⟨disk, fun _ => none⟩

inductive Move
  /-- A gate starts, or a run of the tool begins. There is a key to spare should the file be missing. -/
  | load (who : Party) (spare : Key)
  /-- The loaded keys are rotated. A gate goes on with the new ones, and a run of the tool is over. -/
  | rotate (who : Party) (fresh : Key)

/-- One of them has, or has no longer, what it rotates. -/
def set (s : SharedFile) (disk : Storage.Disk) (who : Party) (keeper : Option Keeper) : SharedFile :=
  ⟨disk, fun other => if other = who then keeper else s.keepers other⟩

/-- What a move leads to. Nothing is loaded from a file that is not one of keys, and nobody rotates
who has no keys. -/
def act? (path : String) (s : SharedFile) : Move → Option SharedFile
  | .load who spare =>
    match Ring.load (.file path none) spare s.disk with
    | (.ok ring, disk) => some (s.set disk who (some (.start ring disk)))
    | (.error _, _) => none
  | .rotate who fresh =>
    (s.keepers who).map fun keeper =>
      let next := (Keeper.rotate fresh { keeper with disk := s.disk }).2
      s.set next.disk who (if who = .gate then some next else none)

def run? (path : String) : List Move → SharedFile → Option SharedFile
  | [], s => some s
  | move :: rest, s => (s.act? path move).bind (run? path rest)

end SharedFile
end Gatehouse.KeyTool
