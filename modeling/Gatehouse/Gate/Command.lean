import Gatehouse.CommandLine.Help
import Gatehouse.Lifecycle.Startup
import Gatehouse.Settings.Loading

namespace Gatehouse.Gate

open Gatehouse.CommandLine

def options : List OptionSpec := [
  ⟨"config", some 'c', .path, "Path to the TOML configuration file", some "ticket-gate.toml"⟩]

def page : Page where
  about := "Probe-resistant TLS front-end"
  usage := "ticket-gate [OPTIONS]"
  commands := []
  options := options

def version : String := "ticket-gate 0.1.0"

inductive Failure
  | settings (error : Settings.LoadError)
  | startup (error : StartupError)
deriving Repr, DecidableEq

def describeBind : Listener.BindError → String
  | .address text =>
    "Address \x7b address: " ++ Text.quoted text ++ ", reason: " ++
      Text.quoted SocketAddress.syntaxMessage ++ " \x7d"
  | .refused refusal => "Bind(" ++ refusal.detail ++ ")"
  | .tooManySlots max => s!"TooManySlots({max})"

def describeStartup : StartupError → String
  | .metrics refusal => "Metrics(" ++ refusal.detail ++ ")"
  | .keyRing e => "KeyRing(Config(" ++ Text.quoted e.detail ++ "))"
  | .decoy refusal => "Decoy(" ++ refusal.detail ++ ")"
  | .identity e => "Tls(" ++ e.describe ++ ")"
  | .certificate cause => "Listener(Certificate(Rustls(" ++ cause.describe ++ ")))"
  | .listener e => "Listener(" ++ describeBind e ++ ")"
  | .settings text => "Config(" ++ Text.quoted text ++ ")"

def Failure.describe : Failure → String
  | .settings e => e.describe
  | .startup e => describeStartup e

/-- How a failure ends the program. That there can be only so many slots is not foreseen. -/
def Failure.exit : Failure → Exit
  | .startup (.listener (.tooManySlots max)) => .abort (Listener.BindError.tooManySlots max).message
  | failure => .failure failure.describe

def start (path : String) (fresh : Ticket.Key) (machine : Machine) (disk : Storage.Disk) :
    Except Failure Startup.Running × Storage.Disk :=
  match Settings.load path disk with
  | .error e => (.error (.settings e), disk)
  | .ok settings =>
    let (running, disk) := Startup.start settings fresh machine disk
    (running.mapError .startup, disk)

def run (arguments : List String) (fresh : Ticket.Key) (machine : Machine)
    (disk : Storage.Disk) : Except Exit Startup.Running × Storage.Disk :=
  match read options true [] arguments with
  | .error .usage => (.error .misuse, disk)
  | .error .help => (.error (.success (page.text true)), disk)
  | .error .version => (.error (.success (version ++ "\n")), disk)
  | .ok values =>
    let path := (values.text? "config").getD "ticket-gate.toml"
    let (running, disk) := start path fresh machine disk
    (running.mapError Failure.exit, disk)

end Gatehouse.Gate
