import Gatehouse.Bytes
import Gatehouse.Storage.Error

namespace Gatehouse.Storage

/-- A place in the tree: the names on the way from its root. -/
abbrev Place := List String

inductive Node
  | directory
  | file (content : Bytes)
deriving Repr, DecidableEq

/-- The nodes of the tree; of two entries for one place the first counts. The root is always
there. Relative paths start at `home`. -/
structure Disk where
  home : Place
  entries : List (Place × Node)
deriving Repr

inductive Target
  /-- A directory that is reached by dots, or the root. -/
  | directory
  /-- A name in a directory that is there. A slash behind the name asks for a directory. -/
  | entry (parent : Place) (name : String) (slash : Bool)
deriving Repr, DecidableEq

/-- The bytes a name may have. -/
def maxNameLength : Nat := 255

def maxPathLength : Nat := 4095

def isTooLong (name : String) : Bool := maxNameLength < name.utf8ByteSize

def pieces : List Char → List (List Char)
  | [] => [[]]
  | c :: rest =>
    if c = '/' then [] :: pieces rest
    else
      match pieces rest with
      | [] => [[c]]
      | piece :: more => (c :: piece) :: more

/-- The names along a path; slashes that follow each other count as one. -/
def names (path : String) : List String :=
  ((pieces path.toList).filter fun piece => !piece.isEmpty).map String.ofList

namespace Disk

def node? (disk : Disk) (place : Place) : Option Node :=
  if place.isEmpty then some .directory
  else (disk.entries.find? fun e => e.1 == place).map Prod.snd

def set (disk : Disk) (place : Place) (node : Node) : Disk :=
  { disk with entries := (place, node) :: disk.entries.filter fun e => e.1 != place }

def erase (disk : Disk) (place : Place) : Disk :=
  { disk with entries := disk.entries.filter fun e => e.1 != place }

/-- The directory that a name leads to from another one. Double dots lead up; above the root there
is the root. -/
def enter (disk : Disk) (directory : Place) (name : String) : Except Error Place :=
  if name = "." then .ok directory
  else if name = ".." then .ok directory.dropLast
  else if isTooLong name then .error .nameTooLong
  else
    match disk.node? (directory ++ [name]) with
    | some .directory => .ok (directory ++ [name])
    | some (.file _) => .error .notDirectory
    | none => .error .notFound

/-- What names lead to from a directory. Whatever is passed through must be there and be a
directory, also where the path turns back. -/
def follow (disk : Disk) (slash : Bool) (directory : Place) : List String → Except Error Target
  | [] => .ok .directory
  | [name] =>
    if name = "." ∨ name = ".." then .ok .directory else .ok (.entry directory name slash)
  | name :: rest =>
    match disk.enter directory name with
    | .ok next => disk.follow slash next rest
    | .error e => .error e

def resolve (disk : Disk) (path : String) : Except Error Target :=
  let cs := path.toList
  if Char.ofNat 0 ∈ cs then .error .nulInName
  else if cs.isEmpty then .error .notFound
  else if maxPathLength < path.utf8ByteSize then .error .nameTooLong
  else
    disk.follow (cs.getLast? == some '/') (if cs.head? = some '/' then [] else disk.home)
      (names path)

def fileAt (disk : Disk) : Target → Except Error (Place × Bytes)
  | .directory => .error .isDirectory
  | .entry parent name slash =>
    if isTooLong name then .error .nameTooLong
    else
      match disk.node? (parent ++ [name]) with
      | none => .error .notFound
      | some .directory => .error .isDirectory
      | some (.file content) =>
        if slash then .error .notDirectory else .ok (parent ++ [name], content)

def file (disk : Disk) (path : String) : Except Error (Place × Bytes) :=
  disk.resolve path >>= disk.fileAt

def read (disk : Disk) (path : String) : Except Error Bytes := (disk.file path).map Prod.snd

def readText (disk : Disk) (path : String) : Except Error String := do
  match Bytes.toString? (← disk.read path) with
  | some s => return s
  | none => throw .notUtf8

/-- Where a new file can be put: at a name that is not a directory's. -/
def freeAt (disk : Disk) : Target → Except Error Place
  | .directory => .error .isDirectory
  | .entry parent name slash =>
    if slash then .error .isDirectory
    else if isTooLong name then .error .nameTooLong
    else if disk.node? (parent ++ [name]) = some .directory then .error .isDirectory
    else .ok (parent ++ [name])

/-- Opens a file for writing: created if missing, emptied if not. -/
def create (disk : Disk) (path : String) : Except Error Disk :=
  (disk.resolve path >>= disk.freeAt).map fun place => disk.set place (.file [])

def append (disk : Disk) (path : String) (bs : Bytes) : Except Error Disk :=
  (disk.file path).map fun (place, content) => disk.set place (.file (content ++ bs))

def remove (disk : Disk) (path : String) : Except Error Disk :=
  (disk.file path).map fun (place, _) => disk.erase place

/-- Where a file can be moved to: to a name, and not over a directory. -/
def landingAt (disk : Disk) : Target → Except Error Place
  | .directory => .error .busy
  | .entry parent name slash =>
    if isTooLong name then .error .nameTooLong
    else if slash then .error .notDirectory
    else if disk.node? (parent ++ [name]) = some .directory then .error .isDirectory
    else .ok (parent ++ [name])

/-- Moves a file in one step over whatever file stands at the new path. -/
def rename (disk : Disk) (source target : String) : Except Error Disk := do
  let origin ← disk.resolve source
  let goal ← disk.resolve target
  if origin = .directory ∨ goal = .directory then throw .busy
  let (place, content) ← disk.fileAt origin
  let landing ← disk.landingAt goal
  return (disk.erase place).set landing (.file content)

/-- The names in a directory, sorted; none if it is not there. -/
def list (disk : Disk) (directory : Place) : List String :=
  if disk.node? directory ≠ some .directory then []
  else
    let inside := disk.entries.filterMap fun e =>
      if e.1.dropLast == directory && !e.1.isEmpty then e.1.getLast? else none
    inside.mergeSort fun a b => decide (a ≤ b)

def eraseTree (disk : Disk) (directory : Place) : Disk :=
  { disk with entries := disk.entries.filter fun e => !directory.isPrefixOf e.1 }

end Disk
end Gatehouse.Storage
