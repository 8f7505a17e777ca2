import Gatehouse.Settings.Basic
import Gatehouse.Settings.Document
import Gatehouse.Toml.Reader

namespace Gatehouse.Settings

open Document

/-- The kinds of rules, in the order in which they are counted. -/
inductive RuleKind
  | none
  | alert
  | close
  | delayed
  | reflect
deriving Repr, DecidableEq

namespace RuleKind

def all : List RuleKind := [.none, .alert, .close, .delayed, .reflect]

def name : RuleKind → String
  | .none => "none"
  | .alert => "alert"
  | .close => "close"
  | .delayed => "delayed"
  | .reflect => "reflect"

def ofName? (name : String) : Option RuleKind := all.find? fun k => k.name == name

/-- The kind that a rule's `type` names. Inside another rule a number may count it off. -/
def ofDocument? (nested : Bool) : Document → Option RuleKind
  | .text s => ofName? s
  | .unsigned n => if nested then all[n]? else Option.none
  | _ => Option.none

end RuleKind

def alert? (d : Document) : Option Alert :=
  choice? (fun d => isNull d || isEmptyTable d) Alert.ofName? d

mutual

/-- A rule as a table, or as a list of its kind and what the kind takes in order. -/
def rule? (nested : Bool) : Document → Option ReactionRule
  | .table fields =>
    match (fields.lookup "type").bind (RuleKind.ofDocument? nested) with
    | some .none => some .none
    | some .alert => (setting fields "alert" alert? .handshakeFailure).map .alert
    | some .close => some .close
    | some .delayed =>
      match (fields.lookup "delay_ms").bind number?, nextInTable? fields with
      | some delayMs, some next => some (.delayed delayMs next)
      | _, _ => Option.none
    | some .reflect => ((fields.lookup "destination").bind text?).map .reflect
    | Option.none => Option.none
  | .list (kind :: rest) =>
    match RuleKind.ofDocument? nested kind, rest with
    | some .none, [] => some .none
    | some .alert, [] => some .standard
    | some .alert, [d] => (alert? d).map .alert
    | some .close, [] => some .close
    | some .delayed, delay :: tail =>
      match number? delay, nextInList? tail with
      | some delayMs, some next => some (.delayed delayMs next)
      | _, _ => Option.none
    | some .reflect, [d] => (text? d).map .reflect
    | _, _ => Option.none
  | _ => Option.none

def nextInTable? : List (String × Document) → Option ReactionRule
  | [] => Option.none
  | f :: fields => if f.1 = "then" then rule? true f.2 else nextInTable? fields

def nextInList? : List Document → Option ReactionRule
  | [d] => rule? true d
  | _ => Option.none

end

def listener? (dialect : Dialect) (d : Document) : Option Listener := do
  let fields ← d.section? dialect
    ["bind_address", "max_connections", "handshake_timeout_secs", "loopback_bypass"]
  let standard : Listener := {}
  return {
    bindAddress := ← setting fields "bind_address" text? standard.bindAddress
    maxConnections := ← setting fields "max_connections" number? standard.maxConnections
    handshakeTimeoutSecs :=
      ← setting fields "handshake_timeout_secs" number? standard.handshakeTimeoutSecs
    loopbackBypass := ← setting fields "loopback_bypass" flag? standard.loopbackBypass }

def tls? (dialect : Dialect) (d : Document) : Option Tls := do
  let fields ← d.section? dialect ["cert_path", "key_path"]
  return {
    certPath := ← setting fields "cert_path" (orUnset text?) none
    keyPath := ← setting fields "key_path" (orUnset text?) none }

def sessionTickets? (dialect : Dialect) (d : Document) : Option SessionTickets := do
  let fields ← d.section? dialect
    ["keys_base64", "key_file", "rotation_interval_secs", "max_keys", "ticket_lifetime_secs"]
  let standard : SessionTickets := {}
  return {
    keysBase64 := ← setting fields "keys_base64" (orUnset text?) none
    keyFile := ← setting fields "key_file" (orUnset text?) none
    rotationIntervalSecs :=
      ← setting fields "rotation_interval_secs" number? standard.rotationIntervalSecs
    maxKeys := ← setting fields "max_keys" (orUnset number?) none
    ticketLifetimeSecs :=
      ← setting fields "ticket_lifetime_secs" number? standard.ticketLifetimeSecs }

def Protocol.ofName? (name : String) : Option Protocol :=
  if name = "rdp" then some .rdp else none

def mimicry? (dialect : Dialect) (d : Document) : Option Mimicry := do
  let fields ← d.section? dialect ["protocol", "prefix_timeout_secs", "hold_open_secs"]
  let standard : Mimicry := {}
  return {
    protocol := ← setting fields "protocol" (orUnset (choice? dialect.isBare Protocol.ofName?)) none
    prefixTimeoutSecs := ← setting fields "prefix_timeout_secs" number? standard.prefixTimeoutSecs
    holdOpenSecs := ← setting fields "hold_open_secs" number? standard.holdOpenSecs }

def forwarding? (dialect : Dialect) (d : Document) : Option Forwarding := do
  let fields ← d.section? dialect ["forward_address", "connect_timeout_secs"]
  let standard : Forwarding := {}
  return {
    forwardAddress := ← setting fields "forward_address" text? standard.forwardAddress
    connectTimeoutSecs :=
      ← setting fields "connect_timeout_secs" number? standard.connectTimeoutSecs }

def observability? (dialect : Dialect) (d : Document) : Option Observability := do
  let fields ← d.section? dialect ["log_level", "metrics_enabled", "metrics_address"]
  let standard : Observability := {}
  return {
    logLevel := ← setting fields "log_level" text? standard.logLevel
    metricsEnabled := ← setting fields "metrics_enabled" flag? standard.metricsEnabled
    metricsAddress := ← setting fields "metrics_address" text? standard.metricsAddress }

/-- Names that mean nothing are passed over; a value of the wrong kind makes the whole document
unreadable. -/
def ofDocument? (dialect : Dialect) (d : Document) : Option Settings := do
  let fields ← d.section? dialect
    ["listener", "tls", "session_tickets", "reaction", "mimicry", "upstream", "observability"]
  return {
    listener := ← setting fields "listener" (listener? dialect) {}
    tls := ← setting fields "tls" (tls? dialect) {}
    sessionTickets := ← setting fields "session_tickets" (sessionTickets? dialect) {}
    reaction := ← setting fields "reaction" (rule? false) .standard
    mimicry := ← setting fields "mimicry" (mimicry? dialect) {}
    forwarding := ← setting fields "upstream" (forwarding? dialect) {}
    observability := ← setting fields "observability" (observability? dialect) {} }

def ofJson? (j : Json) : Option Settings := ofDocument? jsonDialect (Document.ofJson j)

def ofToml? (text : String) : Option Settings :=
  (Toml.parse? text).bind fun entries =>
    ofDocument? tomlDialect (Document.ofToml (.table .header entries))

def ReactionRule.ofJson? (j : Json) : Option ReactionRule := rule? false (Document.ofJson j)

end Gatehouse.Settings

namespace Gatehouse

def Alert.ofJson? (j : Json) : Option Alert :=
  Settings.Document.choice? Settings.Document.isNull Alert.ofName? (Settings.Document.ofJson j)

end Gatehouse
