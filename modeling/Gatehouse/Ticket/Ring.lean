import Gatehouse.Storage.Replace
import Gatehouse.Ticket.KeyList

namespace Gatehouse.Ticket

inductive Source
  /-- A Base64 text. -/
  | text (base64 : String)
  /-- A file of concatenated keys, and how many of them a rotation keeps. -/
  | file (path : String) (maxKeys : Option Nat)
deriving Repr, DecidableEq

/-- What a rotation does: go round in the keys at hand, or put a fresh one in front and write the
keys to a file. -/
inductive Mode
  | inMemory
  | file (path : String) (maxKeys : Option Nat)
deriving Repr, DecidableEq

structure PersistError where
  path : String
  cause : Storage.Error
deriving Repr, DecidableEq

def PersistError.message (e : PersistError) : String :=
  "failed to persist session ticket keys to " ++ e.path ++ ": " ++ e.cause.message

inductive LoadError
  | material (error : MaterialError)
  | unreadable (path : String) (cause : Storage.Error)
  | notCreated (error : PersistError)
deriving Repr, DecidableEq

def LoadError.detail : LoadError → String
  | .material e => e.message
  | .unreadable path cause => "cannot read key file " ++ path ++ ": " ++ cause.message
  | .notCreated e => e.message

def LoadError.message (e : LoadError) : String := "invalid session ticket keys: " ++ e.detail

structure Ring where
  mode : Mode
  keys : KeyList
deriving DecidableEq

/-- Replaces a key file. -/
def persist (path : String) (keys : KeyList) (disk : Storage.Disk) :
    Except PersistError Unit × Storage.Disk :=
  let (result, disk) := Storage.replace path keys.toBytes disk
  (result.mapError fun e => ⟨path, e⟩, disk)

namespace Ring

def generated (fresh : Key) : Ring := ⟨.inMemory, ⟨fresh, []⟩⟩

/-- The keys in a file. A missing file is created with one fresh key. -/
def loadKeys (path : String) (fresh : Key) (disk : Storage.Disk) :
    Except LoadError KeyList × Storage.Disk :=
  match disk.read path with
  | .ok blob => ((KeyList.ofBytes blob).mapError .material, disk)
  | .error .notFound =>
    let keys : KeyList := ⟨fresh, []⟩
    let (result, disk) := persist path keys disk
    ((result.map fun _ => keys).mapError .notCreated, disk)
  | .error e => (.error (.unreadable path e), disk)

def load (source : Source) (fresh : Key) (disk : Storage.Disk) :
    Except LoadError Ring × Storage.Disk :=
  match source with
  | .text base64 =>
    ((KeyList.ofBase64 base64).mapError .material |>.map (⟨.inMemory, ·⟩), disk)
  | .file path maxKeys =>
    let (keys, disk) := loadKeys path fresh disk
    (keys.map (⟨.file path maxKeys, ·⟩), disk)

def isFileBacked (ring : Ring) : Bool :=
  match ring.mode with
  | .inMemory => false
  | .file _ _ => true

/-- The ring after a rotation. A ring of one key has nothing to rotate into. -/
def next? (ring : Ring) (fresh : Key) : Option Ring :=
  if ring.keys.size < 2 then none
  else
    match ring.mode with
    | .inMemory => some { ring with keys := ring.keys.shifted }
    | .file _ maxKeys => some { ring with keys := ring.keys.prepended fresh maxKeys }

def describeLimit : Option Nat → String
  | none => "None"
  | some n => s!"Some({n})"

/-- A description that leaves the keys out. -/
def describe (ring : Ring) : String :=
  let mode := match ring.mode with
    | .inMemory => "InMemory"
    | .file path maxKeys => "File \x7b path: " ++ Text.quoted path ++ ", max_keys: " ++
        describeLimit maxKeys ++ " \x7d"
  "KeyRing \x7b mode: " ++ mode ++ s!", keys: {ring.keys.size}" ++ " \x7d"

end Ring
end Gatehouse.Ticket
