namespace Gatehouse

inductive RejectReason
  | malformedHello
  | extensionNotOffered
  | noTicket
  | invalidTicket
  | handshakeTimeout
deriving Repr, DecidableEq

def RejectReason.text : RejectReason → String
  | .malformedHello => "malformed ClientHello"
  | .extensionNotOffered => "ticket extension not offered"
  | .noTicket => "no session ticket"
  | .invalidTicket => "invalid session ticket"
  | .handshakeTimeout => "handshake timeout"

inductive ConnectionOutcome
  | accepted
  | rejected
  | refused
  | handshakeFailed
  | timeout
deriving Repr, DecidableEq

def ConnectionOutcome.text : ConnectionOutcome → String
  | .accepted => "accepted"
  | .rejected => "rejected"
  | .refused => "refused"
  | .handshakeFailed => "handshake_failed"
  | .timeout => "timeout"

inductive Direction
  | clientToSite
  | siteToClient
deriving Repr, DecidableEq

def Direction.text : Direction → String
  | .clientToSite => "client_to_site"
  | .siteToClient => "site_to_client"

inductive Counter
  | probing (reason : RejectReason)
  | connections (outcome : ConnectionOutcome)
  | keyRotations
  | relayBytes (direction : Direction)
deriving Repr, DecidableEq

def labelled (name label value : String) : String :=
  name ++ "\x7b" ++ label ++ "=\"" ++ value ++ "\"\x7d"

def Counter.name : Counter → String
  | .probing r => labelled "ticket_gate_probing_suspected_total" "reason" r.text
  | .connections o => labelled "ticket_gate_connections_total" "outcome" o.text
  | .keyRotations => "ticket_gate_key_rotations_total"
  | .relayBytes d => labelled "ticket_gate_relay_bytes_total" "direction" d.text

end Gatehouse
