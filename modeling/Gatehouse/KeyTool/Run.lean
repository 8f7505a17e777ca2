import Gatehouse.Json.Printer
import Gatehouse.KeyTool.Command
import Gatehouse.Ticket.Keeper

namespace Gatehouse.KeyTool

open Gatehouse.CommandLine Gatehouse.Ticket

structure Entropy where
  key : Nat → Key
  iv : Nat → Bytes

inductive Failure
  | material (error : MaterialError)
  | unreadable (cause : Storage.Error)
  | ring (error : Ticket.LoadError)
  | notWritten (error : PersistError)
  | notHex (error : Hex.DecodeError)
deriving Repr, DecidableEq

def describeHex : Hex.DecodeError → String
  | .oddLength => "OddLength"
  | .invalidCharacter byte index =>
    "InvalidHexCharacter \x7b c: " ++ Text.quotedChar (Char.ofNat byte.toNat) ++
      s!", index: {index}" ++ " \x7d"

def Failure.describe : Failure → String
  | .material e => "Config(" ++ Text.quoted e.message ++ ")"
  | .unreadable cause => cause.describe
  | .ring e => "Config(" ++ Text.quoted e.detail ++ ")"
  | .notWritten e =>
    "Persistence \x7b path: " ++ Text.quoted e.path ++ ", source: " ++ e.cause.describe ++
      " \x7d"
  | .notHex e => describeHex e

def KeySource.keys (disk : Storage.Disk) : KeySource → Except Failure KeyList
  | .text base64 => (KeyList.ofBase64 base64).mapError .material
  | .file path => do
    let blob ← (disk.read path).mapError Failure.unreadable
    (KeyList.ofBytes blob).mapError .material

def decodeHex (text : String) : Except Failure Bytes :=
  (Hex.decode (Bytes.ofString text)).mapError .notHex

def summary (keys : KeyList) : List (String × Json) := [
  ("count", .nat keys.size),
  ("key_names", .arr (keys.toList.map fun k => .str k.nameText))]

def rotationReport (file : String) (keys : KeyList) (rotated : Bool) : Json :=
  .obj [
    ("count", .nat keys.size),
    ("file", .str file),
    ("key_names", .arr (keys.toList.map fun k => .str k.nameText)),
    ("rotated", .bool rotated)]

def verdict (keys : KeyList) (ticket : Bytes) : Json :=
  match keys.find? ticket with
  | some (index, key, state) =>
    .obj [
      ("key_index", .nat index),
      ("key_name", .str key.nameText),
      ("state_base64", .str (Base64.encodeText state)),
      ("valid", .bool true)]
  | none => .obj [("valid", .bool false)]

/-- Loads a key file and rotates it, as a ring does that has it for its source. -/
def rotateFile (path : String) (maxKeys : Option Nat) (entropy : Entropy) (disk : Storage.Disk) :
    Except Ticket.LoadError (Bool × KeyList) × Storage.Disk :=
  let (ring, disk) := Ring.load (.file path maxKeys) (entropy.key 0) disk
  match ring with
  | .error e => (.error e, disk)
  | .ok ring =>
    let (rotated, keeper) := (Keeper.start ring disk).rotate (entropy.key 1)
    (.ok (rotated, keeper.ring.keys), keeper.disk)

def freshKeys (count : Nat) (entropy : Entropy) : Except Failure KeyList :=
  match KeyList.ofList? ((List.range count).map entropy.key) with
  | some keys => .ok keys
  | none => .error (.material .empty)

def line (s : String) : String := s ++ "\n"

/-- Prints keys, after they were written to a file if one is named. -/
def generate (count : Nat) (out : Option String) (entropy : Entropy) (disk : Storage.Disk) :
    Except Failure Exit × Storage.Disk :=
  match freshKeys count entropy, out with
  | .error e, _ => (.error e, disk)
  | .ok keys, none => (.ok (.success (line keys.toBase64)), disk)
  | .ok keys, some path =>
    match persist path keys disk with
    | (.error e, disk) => (.error (.notWritten e), disk)
    | (.ok (), disk) =>
      (.ok ⟨0, line keys.toBase64, line s!"wrote {keys.size} keys to {path}"⟩, disk)

def printed (value : Json) : Exit := .success (line (value.pretty 0))

def execute (command : Command) (entropy : Entropy) (disk : Storage.Disk) :
    Except Failure Exit × Storage.Disk :=
  match command with
  | .generate count out => generate count out entropy disk
  | .inspect source => ((source.keys disk).map fun keys => printed (.obj (summary keys)), disk)
  | .rotate file maxKeys =>
    let (result, disk) := rotateFile file maxKeys entropy disk
    ((result.map fun (rotated, keys) => printed (rotationReport file keys rotated)).mapError .ring,
      disk)
  | .mint source state =>
    (do
      let keys ← source.keys disk
      let state ← decodeHex state
      return .success (line (Hex.encode (keys.sealWith (entropy.iv 0) state))), disk)
  | .verify source ticket =>
    (do
      let keys ← source.keys disk
      let ticket ← decodeHex ticket
      return printed (verdict keys ticket), disk)

def run (arguments : List String) (entropy : Entropy) (disk : Storage.Disk) :
    Exit × Storage.Disk :=
  match request arguments with
  | .misuse => (.misuse, disk)
  | .help page => (.success (page.text false), disk)
  | .run command =>
    match execute command entropy disk with
    | (.ok exit, disk) => (exit, disk)
    | (.error e, disk) => (.failure e.describe, disk)

end Gatehouse.KeyTool
