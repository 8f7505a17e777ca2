import Gatehouse.Storage.Disk

namespace Gatehouse.Storage

inductive Step
  | create
  | write (chunk : Bytes)
  | sync
  | rename
deriving Repr, DecidableEq

def sibling (path : String) : String := path ++ ".tmp"

/-- The concatenated chunks go into a sibling, which is then moved over the file. The file itself is
touched by the last step only. -/
def replacement (chunks : List Bytes) : List Step :=
  .create :: (chunks.map .write ++ [.sync, .rename])

/-- What one step does. Syncing changes nothing that can be read. -/
def Step.run (path : String) (disk : Disk) : Step → Except Error Disk
  | .create => disk.create (sibling path)
  | .write chunk => disk.append (sibling path) chunk
  | .sync => .ok disk
  | .rename => disk.rename (sibling path) path

/-- Takes steps in order until one fails. `fails` tells which step fails, by how many are still to
come behind it, for a reason outside the tree; such a step changes nothing. -/
def runSteps (fails : Nat → Option Error) (path : String) :
    List Step → Disk → Except Error Unit × Disk
  | [], disk => (.ok (), disk)
  | step :: rest, disk =>
    match fails rest.length with
    | some e => (.error e, disk)
    | none =>
      match step.run path disk with
      | .error e => (.error e, disk)
      | .ok disk => runSteps fails path rest disk

/-- Every step succeeds that the tree allows. -/
def noFailure : Nat → Option Error := fun _ => none

/-- Replaces the content of a file. -/
def replace (path : String) (content : Bytes) (disk : Disk) : Except Error Unit × Disk :=
  runSteps noFailure path (replacement [content]) disk

end Gatehouse.Storage
