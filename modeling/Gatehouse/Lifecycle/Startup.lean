import Gatehouse.Net.Clock
import Gatehouse.Net.Listener
import Gatehouse.Rdp.Negotiation
import Gatehouse.Settings.Basic
import Gatehouse.Ticket.Ring
import Gatehouse.Tls.Fitness

namespace Gatehouse

open Settings

/-- What a listener is set up with. Times are milliseconds. -/
structure Frontage where
  bindAddress : String
  maxConnections : Nat
  handshakeTimeout : Nat
  loopbackBypass : Bool
  reaction : Reaction
  identity : Tls.Identity
  ticketLifetime : Nat
  negotiator : Option Rdp.Negotiator
  connectTimeout : Nat
deriving Repr, DecidableEq

/-- What a start asks of the machine that it is made on. -/
structure Machine where
  /-- Hands out the metrics at an address. -/
  exporter : SocketAddress → Except Refusal Unit
  /-- Makes up an identity. -/
  decoy : Except Refusal Tls.Identity
  /-- Opens an address to be listened on. -/
  opens : SocketAddress → Except Refusal SocketAddress

/-- Why a gate could not be started. -/
inductive StartupError
  | metrics (refusal : Refusal)
  | keyRing (error : Ticket.LoadError)
  | decoy (refusal : Refusal)
  | identity (error : Tls.IdentityError)
  /-- The identity cannot be listened with. -/
  | certificate (cause : Tls.Unfit)
  | listener (error : Listener.BindError)
  | settings (text : String)
deriving Repr, DecidableEq

/-- What is wrong, where there is a text for it. -/
def StartupError.message? : StartupError → Option String
  | .metrics refusal => some ("metrics exporter: " ++ refusal.message)
  | .keyRing e => some ("session ticket keys: " ++ e.message)
  | .decoy refusal => some ("decoy certificate: " ++ refusal.message)
  | .identity e => e.message?.map ("certificate: " ++ ·)
  | .certificate _ => none
  | .listener e => some ("listener: " ++ e.message)
  | .settings text => some ("configuration: " ++ text)

namespace Startup

/-- The source that settings name for the keys, if they name one. A text wins over a file. -/
def source? (s : SessionTickets) : Option Ticket.Source :=
  match s.keysBase64, s.keyFile with
  | some text, _ => some (.text text)
  | none, some path => some (.file path (s.maxKeys.map UInt64.toNat))
  | none, none => none

/-- The ring, which without a source holds one fresh key. -/
def buildRing (s : SessionTickets) (fresh : Ticket.Key) (disk : Storage.Disk) :
    Except Ticket.LoadError Ticket.Ring × Storage.Disk :=
  match source? s with
  | some source => Ticket.Ring.load source fresh disk
  | none => (.ok (.generated fresh), disk)

def negotiator? (s : Mimicry) : Option Rdp.Negotiator :=
  s.protocol.map fun
    | .rdp => ⟨millis s.prefixTimeoutSecs, millis s.holdOpenSecs⟩

/-- The identity that is shown: a made-up one if a protocol is spoken before TLS, else the one in
the files named. -/
def identity (s : Settings) (decoy : Except Refusal Tls.Identity) (disk : Storage.Disk) :
    Except StartupError Tls.Identity :=
  match s.mimicry.protocol, s.tls.certPath, s.tls.keyPath with
  | some _, _, _ => decoy.mapError .decoy
  | none, some cert, some key => (Tls.Identity.load cert key disk).mapError .identity
  | none, _, _ => .error (.settings "tls.cert_path and tls.key_path are required")

def frontage (s : Settings) (decoy : Except Refusal Tls.Identity) (disk : Storage.Disk) :
    Except StartupError Frontage :=
  (identity s decoy disk).map fun identity => {
    bindAddress := s.listener.bindAddress
    maxConnections := s.listener.maxConnections.toNat
    handshakeTimeout := millis s.listener.handshakeTimeoutSecs
    loopbackBypass := s.listener.loopbackBypass
    reaction := s.reaction.toReaction
    identity := identity
    ticketLifetime := millis s.sessionTickets.ticketLifetimeSecs
    negotiator := negotiator? s.mimicry
    connectTimeout := millis s.forwarding.connectTimeoutSecs }

structure Running where
  ring : Ticket.Ring
  frontage : Frontage
  listener : Listener

def metricsAddress? (s : Observability) : Except StartupError (Option SocketAddress) :=
  if s.metricsEnabled then
    match SocketAddress.parse? s.metricsAddress with
    | some address => .ok (some address)
    | none => .error (.settings ("metrics_address: " ++ SocketAddress.syntaxMessage))
  else .ok none

def exportMetrics (s : Observability) (exporter : SocketAddress → Except Refusal Unit) :
    Except StartupError Unit := do
  match ← metricsAddress? s with
  | some address => (exporter address).mapError .metrics
  | none => return

/-- Listens with the identity checked first. A made-up identity needs no check. -/
def listen (s : Settings) (frontage : Frontage)
    (opens : SocketAddress → Except Refusal SocketAddress) : Except StartupError Listener := do
  if s.mimicry.protocol.isNone then frontage.identity.check.mapError .certificate
  (Listener.bind opens frontage.bindAddress frontage.maxConnections).mapError .listener

/-- Metrics, ring, listener's settings and listener, in this order. The first error ends it. -/
def start (s : Settings) (fresh : Ticket.Key) (machine : Machine) (disk : Storage.Disk) :
    Except StartupError Running × Storage.Disk :=
  match exportMetrics s.observability machine.exporter with
  | .error e => (.error e, disk)
  | .ok () =>
    let (ring, disk) := buildRing s.sessionTickets fresh disk
    match ring with
    | .error e => (.error (.keyRing e), disk)
    | .ok ring =>
      let running := do
        let frontage ← frontage s machine.decoy disk
        let listener ← listen s frontage machine.opens
        return ⟨ring, frontage, listener⟩
      (running, disk)

/-- When the first rotation is due, if the clock can tell; both in seconds. -/
def firstRotation? (s : SessionTickets) (now : Nat) : Option Nat :=
  Clock.later? now s.rotationIntervalSecs.toNat

/-- When the handshake of a connection must be over, if the clock can tell; both in seconds. -/
def handshakeDeadline? (s : Settings.Listener) (now : Nat) : Option Nat :=
  Clock.later? now s.handshakeTimeoutSecs.toNat

end Startup
end Gatehouse
