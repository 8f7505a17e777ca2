import Gatehouse.Address.Destination
import Gatehouse.Address.Socket
import Gatehouse.Settings.Basic
import Gatehouse.Ticket.Ring

namespace Gatehouse.Settings

structure Problem where
  field : String
  message : String
deriving Repr, DecidableEq

def Problem.text (p : Problem) : String := p.field ++ ": " ++ p.message

def reportIf (violated : Bool) (field message : String) : List Problem :=
  if violated then [⟨field, message⟩] else []

def mustBePositive (n : UInt64) (field : String) : List Problem :=
  reportIf (n == 0) field "must be > 0"

def isSocketAddress (text : String) : Bool := (SocketAddress.parse? text).isSome

def Listener.problems (s : Listener) : List Problem :=
  reportIf (!isSocketAddress s.bindAddress) "listener.bind_address"
      ("'" ++ s.bindAddress ++ "' is not a socket address") ++
    mustBePositive s.maxConnections "listener.max_connections" ++
    mustBePositive s.handshakeTimeoutSecs "listener.handshake_timeout_secs"

/-- A certificate is needed unless a protocol is spoken before TLS, and never half of one. -/
def Tls.problems (s : Tls) (disguised : Bool) : List Problem :=
  match s.certPath, s.keyPath with
  | some _, some _ => []
  | none, none =>
    reportIf (!disguised) "tls" "cert_path and key_path are required without mimicry"
  | _, _ => [⟨"tls", "cert_path and key_path must be set together"⟩]

/-- The keys come from one source at most, and from one that can be used. -/
def SessionTickets.sourceProblems (s : SessionTickets) : List Problem :=
  match s.keysBase64, s.keyFile with
  | some _, some _ => [⟨"session_tickets", "keys_base64 and key_file are mutually exclusive"⟩]
  | some text, none =>
    match Ticket.KeyList.ofBase64 text with
    | .ok _ => []
    | .error e => [⟨"session_tickets.keys_base64", (Ticket.LoadError.material e).message⟩]
  | none, some path => reportIf path.isEmpty "session_tickets.key_file" "must not be empty"
  | none, none => []

def SessionTickets.problems (s : SessionTickets) : List Problem :=
  s.sourceProblems ++
    mustBePositive s.rotationIntervalSecs "session_tickets.rotation_interval_secs" ++
    reportIf (s.maxKeys == some 0) "session_tickets.max_keys" "must be > 0" ++
    reportIf (s.maxKeys.isSome && s.keyFile.isNone) "session_tickets.max_keys"
      "only applies to a key_file"

/-- A delay must lead to something, and a reflection somewhere. -/
def ReactionRule.problems (field : String) : ReactionRule → List Problem
  | .delayed _ next =>
    reportIf (next == .none) field "a delayed reaction must end in alert, close or reflect" ++
      next.problems (field ++ ".then")
  | .reflect destination =>
    reportIf (!isDestination destination) (field ++ ".destination") "must be host:port"
  | _ => []

def Mimicry.problems (s : Mimicry) : List Problem :=
  if s.protocol.isNone then []
  else
    mustBePositive s.prefixTimeoutSecs "mimicry.prefix_timeout_secs" ++
      mustBePositive s.holdOpenSecs "mimicry.hold_open_secs"

def Forwarding.problems (s : Forwarding) : List Problem :=
  reportIf (!isDestination s.forwardAddress) "upstream.forward_address" "must be host:port" ++
    mustBePositive s.connectTimeoutSecs "upstream.connect_timeout_secs"

def logLevels : List String := ["trace", "debug", "info", "warn", "error"]

def Observability.problems (s : Observability) : List Problem :=
  reportIf (!logLevels.contains s.logLevel) "observability.log_level"
      ("unknown level '" ++ s.logLevel ++ "'") ++
    reportIf (s.metricsEnabled && !isSocketAddress s.metricsAddress)
      "observability.metrics_address" "must be a socket address"

/-- Everything that is wrong. A section is judged by itself, only the certificate also by whether a
protocol is spoken before TLS. -/
def problems (s : Settings) : List Problem :=
  s.listener.problems ++ s.tls.problems s.mimicry.protocol.isSome ++ s.sessionTickets.problems ++
    s.reaction.problems "reaction" ++ s.mimicry.problems ++ s.forwarding.problems ++
    s.observability.problems

def validate (s : Settings) : Except (List Problem) Unit :=
  if s.problems.isEmpty then .ok () else .error s.problems

end Gatehouse.Settings
