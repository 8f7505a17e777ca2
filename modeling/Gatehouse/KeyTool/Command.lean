import Gatehouse.CommandLine.Help

namespace Gatehouse.KeyTool

open Gatehouse.CommandLine

inductive KeySource
  | text (base64 : String)
  | file (path : String)
deriving Repr, DecidableEq

inductive Command
  /-- Makes fresh keys, and writes them to a file as well if one is named. -/
  | generate (count : Nat) (out : Option String)
  | inspect (source : KeySource)
  /-- Rotates a key file once. -/
  | rotate (file : String) (maxKeys : Option Nat)
  /-- Makes a ticket for a state in hexadecimal. -/
  | mint (source : KeySource) (state : String)
  /-- Looks for the key that opens a ticket in hexadecimal. -/
  | verify (source : KeySource) (ticket : String)
deriving Repr, DecidableEq

/-- What the arguments ask for. -/
inductive Request
  | run (command : Command)
  | help (page : Page)
  | misuse
deriving Repr, DecidableEq

inductive Name
  | generate
  | inspect
  | rotate
  | mint
  | verify
deriving Repr, DecidableEq

namespace Name

def all : List Name := [.generate, .inspect, .rotate, .mint, .verify]

def text : Name → String
  | .generate => "generate"
  | .inspect => "inspect"
  | .rotate => "rotate"
  | .mint => "mint"
  | .verify => "verify"

def ofText? (s : String) : Option Name := all.find? fun n => n.text == s

def about : Name → String
  | .generate => "Generate fresh keys and print them as base64"
  | .inspect => "List key names, newest first, as JSON"
  | .rotate => "Rotate a key file once, exactly as the running gate would"
  | .mint => "Seal ticket state with the newest key and print the ticket as hex"
  | .verify => "Report which key, if any, opens a hex ticket"

def sourceOptions : List OptionSpec := [
  ⟨"keys", none, .text, "Base64 of N × 32 key bytes", none⟩,
  ⟨"file", none, .path, "Flat binary key file", none⟩]

def options : Name → List OptionSpec
  | .generate => [
    ⟨"count", some 'c', .number, "", some "2"⟩,
    ⟨"out", some 'o', .path, "Also write the raw keys to this file", none⟩]
  | .inspect => sourceOptions
  | .rotate => [
    ⟨"file", some 'f', .path, "", none⟩,
    ⟨"max-keys", none, .number, "", none⟩]
  | .mint => sourceOptions ++ [⟨"state", none, .text, "Ticket plaintext, hex encoded", none⟩]
  | .verify => sourceOptions ++ [⟨"ticket", none, .text, "", none⟩]

def usage : Name → String
  | .generate => "generate [OPTIONS]"
  | .inspect => "inspect <--keys <KEYS>|--file <FILE>>"
  | .rotate => "rotate [OPTIONS] --file <FILE>"
  | .mint => "mint --state <STATE> <--keys <KEYS>|--file <FILE>>"
  | .verify => "verify --ticket <TICKET> <--keys <KEYS>|--file <FILE>>"

def page (n : Name) : Page := ⟨n.about, "ticket-keys " ++ n.usage, [], n.options⟩

end Name

def mainPage : Page where
  about := "Session ticket key management for ticket-gate"
  usage := "ticket-keys <COMMAND>"
  commands := Name.all.map (fun n => (n.text, n.about)) ++
    [("help", "Print this message or the help of the given subcommand(s)")]
  options := []

/-- The keys come from exactly one source. -/
def source? (values : Values) : Option KeySource :=
  match values.text? "keys", values.text? "file" with
  | some text, none => some (.text text)
  | none, some path => some (.file path)
  | _, _ => none

def command? (name : Name) (values : Values) : Option Command :=
  match name with
  | .generate => some (.generate ((values.number? "count").getD 2) (values.text? "out"))
  | .inspect => (source? values).map .inspect
  | .rotate => (values.text? "file").map (.rotate · (values.number? "max-keys"))
  | .mint => do return .mint (← source? values) (← values.text? "state")
  | .verify => do return .verify (← source? values) (← values.text? "ticket")

def request (arguments : List String) : Request :=
  match arguments with
  | [] => .misuse
  | ["help"] => .help mainPage
  | ["help", name] =>
    match Name.ofText? name with
    | some name => .help name.page
    | none => .misuse
  | first :: rest =>
    match Name.ofText? first with
    | some name =>
      match read name.options false [] rest with
      | .ok values =>
        match command? name values with
        | some command => .run command
        | none => .misuse
      | .error .help => .help name.page
      | .error _ => .misuse
    | none =>
      match read [] false [] [first] with
      | .error .help => .help mainPage
      | _ => .misuse

end Gatehouse.KeyTool
