import Gatehouse.Json.Basic
import Gatehouse.Settings.Basic

namespace Gatehouse.Settings

def ofNumber (n : UInt64) : Json := .nat n.toNat

def ReactionRule.toJson : ReactionRule → Json
  | .none => .obj [("type", .str "none")]
  | .alert a => .obj [("type", .str "alert"), ("alert", .str a.name)]
  | .close => .obj [("type", .str "close")]
  | .delayed delayMs next =>
    .obj [("type", .str "delayed"), ("delay_ms", ofNumber delayMs), ("then", next.toJson)]
  | .reflect destination => .obj [("type", .str "reflect"), ("destination", .str destination)]

def Listener.toJson (s : Listener) : Json := .obj [
  ("bind_address", .str s.bindAddress),
  ("max_connections", ofNumber s.maxConnections),
  ("handshake_timeout_secs", ofNumber s.handshakeTimeoutSecs),
  ("loopback_bypass", .bool s.loopbackBypass)]

def Tls.toJson (s : Tls) : Json := .obj [
  ("cert_path", .ofOption .str s.certPath),
  ("key_path", .ofOption .str s.keyPath)]

def SessionTickets.toJson (s : SessionTickets) : Json := .obj [
  ("keys_base64", .ofOption .str s.keysBase64),
  ("key_file", .ofOption .str s.keyFile),
  ("rotation_interval_secs", ofNumber s.rotationIntervalSecs),
  ("max_keys", .ofOption ofNumber s.maxKeys),
  ("ticket_lifetime_secs", ofNumber s.ticketLifetimeSecs)]

def Protocol.name : Protocol → String
  | .rdp => "rdp"

def Mimicry.toJson (s : Mimicry) : Json := .obj [
  ("protocol", .ofOption (fun p => .str p.name) s.protocol),
  ("prefix_timeout_secs", ofNumber s.prefixTimeoutSecs),
  ("hold_open_secs", ofNumber s.holdOpenSecs)]

def Forwarding.toJson (s : Forwarding) : Json := .obj [
  ("forward_address", .str s.forwardAddress),
  ("connect_timeout_secs", ofNumber s.connectTimeoutSecs)]

def Observability.toJson (s : Observability) : Json := .obj [
  ("log_level", .str s.logLevel),
  ("metrics_enabled", .bool s.metricsEnabled),
  ("metrics_address", .str s.metricsAddress)]

def toJson (s : Settings) : Json := .obj [
  ("listener", s.listener.toJson),
  ("tls", s.tls.toJson),
  ("session_tickets", s.sessionTickets.toJson),
  ("reaction", s.reaction.toJson),
  ("mimicry", s.mimicry.toJson),
  ("upstream", s.forwarding.toJson),
  ("observability", s.observability.toJson)]

end Gatehouse.Settings
