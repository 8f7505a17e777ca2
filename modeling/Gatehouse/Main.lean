import Gatehouse.Gate.Command
import Gatehouse.KeyTool.Run

namespace Gatehouse.Main

open Gatehouse.CommandLine

def draw (n : Nat) : IO Bytes := do return (← IO.getRandomBytes (USize.ofNat n)).toList

def spareKey : Ticket.Key := ⟨List.replicate Ticket.keyLength 0, rfl⟩

def drawEntropy (count : Nat) : IO KeyTool.Entropy := do
  let keys := ((← draw (Ticket.keyLength * count)).chunks Ticket.keyLength).toArray
  let iv ← draw Ticket.ivLength
  return ⟨fun n => ((keys[n]?).bind Ticket.Key.ofBytes?).getD spareKey, fun _ => iv⟩

def keysNeeded (arguments : List String) : Nat :=
  match KeyTool.request arguments with
  | .run (.generate count _) => count
  | _ => 2

def pathsNamed (arguments : List String) : List String :=
  match KeyTool.request arguments with
  | .run (.generate _ out) => out.toList
  | .run (.inspect (.file path)) => [path]
  | .run (.rotate path _) => [path]
  | .run (.mint (.file path) _) => [path]
  | .run (.verify (.file path) _) => [path]
  | _ => []

def isDirectory (path : String) : IO Bool := do (← IO.FS.realPath path).isDir

def bare : Storage.Disk := ⟨["."], [(["."], .directory)]⟩

/-- Takes up into a tree whatever a path passes through or ends at. -/
def takeUp (disk : Storage.Disk) (path : String) : IO Storage.Disk := do
  let mut disk := disk
  let mut place := if path.startsWith "/" then [] else disk.home
  let mut way := if path.startsWith "/" then "/" else ""
  for name in Storage.names path do
    way := way ++ name
    place := if name = "." then place else if name = ".." then place.dropLast else place ++ [name]
    if ← isDirectory way then disk := disk.set place .directory
    else
      try
        let content ← IO.FS.readBinFile way
        disk := disk.set place (.file content.toList)
      catch _ => return disk
    way := way ++ "/"
  return disk

/-- Writes a file whose content is another than before. -/
def putBack (before after : Storage.Disk) (path : String) : IO Unit := do
  match after.read path with
  | .error _ => return
  | .ok content =>
    if (before.read path).toOption = some content then return
    IO.FS.writeBinFile (Storage.sibling path) ⟨content.toArray⟩
    IO.FS.rename (Storage.sibling path) path

def report (exit : Exit) : IO UInt32 := do
  IO.print exit.stdout
  IO.eprint exit.stderr
  return UInt32.ofNat exit.status

def keys (arguments : List String) : IO UInt32 := do
  let paths := pathsNamed arguments
  let before ← paths.foldlM takeUp bare
  let (exit, after) := KeyTool.run arguments (← drawEntropy (keysNeeded arguments)) before
  paths.forM (putBack before after)
  report exit

def settingsPaths (s : Settings) : List String :=
  [s.sessionTickets.keyFile, s.tls.certPath, s.tls.keyPath].filterMap id

/-- A machine that refuses nothing. -/
def machine : Machine := ⟨fun _ => .ok (), .ok ⟨[[]], ⟨.pkcs8, []⟩⟩, .ok⟩

def gate (arguments : List String) : IO UInt32 := do
  let path := match read Gate.options true [] arguments with
    | .ok values => (values.text? "config").getD "ticket-gate.toml"
    | .error _ => "ticket-gate.toml"
  let disk ← takeUp bare path
  let paths := match Settings.load path disk with
    | .ok s => settingsPaths s
    | .error _ => []
  let before ← paths.foldlM takeUp disk
  let entropy ← drawEntropy 1
  match Gate.run arguments (entropy.key 0) machine before with
  | (.error exit, after) =>
    paths.forM (putBack before after)
    report exit
  | (.ok _, after) =>
    paths.forM (putBack before after)
    return 0

end Gatehouse.Main

def main (arguments : List String) : IO UInt32 :=
  match arguments with
  | "keys" :: rest => Gatehouse.Main.keys rest
  | "gate" :: rest => Gatehouse.Main.gate rest
  | _ => Gatehouse.Main.report Gatehouse.CommandLine.Exit.misuse
