import Gatehouse.Reaction.Basic

namespace Gatehouse.Settings

structure Listener where
  bindAddress : String := "0.0.0.0:443"
  maxConnections : UInt64 := 10000
  handshakeTimeoutSecs : UInt64 := 10
  loopbackBypass : Bool := true
deriving Repr, DecidableEq

structure Tls where
  certPath : Option String := none
  keyPath : Option String := none
deriving Repr, DecidableEq

structure SessionTickets where
  keysBase64 : Option String := none
  keyFile : Option String := none
  rotationIntervalSecs : UInt64 := 86400
  maxKeys : Option UInt64 := none
  ticketLifetimeSecs : UInt64 := 86400
deriving Repr, DecidableEq

/-- What a rejected client is put through, as it is written down. -/
inductive ReactionRule
  | none
  | alert (alert : Alert)
  | close
  | delayed (delayMs : UInt64) (next : ReactionRule)
  | reflect (destination : String)
deriving Repr, DecidableEq

inductive Protocol
  | rdp
deriving Repr, DecidableEq

structure Mimicry where
  protocol : Option Protocol := none
  prefixTimeoutSecs : UInt64 := 5
  holdOpenSecs : UInt64 := 30
deriving Repr, DecidableEq

structure Forwarding where
  forwardAddress : String := "127.0.0.1:8080"
  connectTimeoutSecs : UInt64 := 5
deriving Repr, DecidableEq

structure Observability where
  logLevel : String := "info"
  metricsEnabled : Bool := false
  metricsAddress : String := "127.0.0.1:9090"
deriving Repr, DecidableEq

/-- Without anything said, a handshake failure is alerted. -/
def ReactionRule.standard : ReactionRule := .alert .handshakeFailure

end Gatehouse.Settings

namespace Gatehouse

structure Settings where
  listener : Settings.Listener := {}
  tls : Settings.Tls := {}
  sessionTickets : Settings.SessionTickets := {}
  reaction : Settings.ReactionRule := .standard
  mimicry : Settings.Mimicry := {}
  forwarding : Settings.Forwarding := {}
  observability : Settings.Observability := {}
deriving Repr, DecidableEq

namespace Settings

def ReactionRule.toReaction : ReactionRule → Reaction
  | .none => .none
  | .alert a => .alert a
  | .close => .close
  | .delayed delayMs next => .delayed delayMs.toNat next.toReaction
  | .reflect destination => .reflect destination

def millis (seconds : UInt64) : Nat := seconds.toNat * 1000

end Settings
end Gatehouse
