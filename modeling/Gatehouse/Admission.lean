import Gatehouse.Address.Ip
import Gatehouse.Hello.Parse
import Gatehouse.Metrics.Basic
import Gatehouse.Reaction.Basic
import Gatehouse.Ticket.KeyList

namespace Gatehouse

inductive Decision
  | pass
  | reject (reason : RejectReason) (reaction : Reaction)
deriving Repr, DecidableEq

/-- A suspected probe: who sent it, and what gave it away. -/
structure ProbeEvent where
  peer : Ip
  reason : RejectReason
deriving Repr, DecidableEq

/-- How hellos are judged, apart from the keys. -/
structure Doorman where
  reaction : Reaction
  /-- Peers on this machine are let through without a ticket. -/
  loopbackBypass : Bool
deriving Repr, DecidableEq

/-- Why the captured bytes do not show a valid ticket, if they do not. An empty state is no
valid one. -/
def ticketFault? (keys : Ticket.KeyList) (raw : Bytes) : Option RejectReason :=
  match Hello.parse raw with
  | .error _ => some .malformedHello
  | .ok parsed =>
    if !parsed.hello.offersTicket then some .extensionNotOffered
    else if parsed.hello.sessionTicket.isEmpty then some .noTicket
    else
      match keys.open? parsed.hello.sessionTicket with
      | some (_ :: _) => none
      | _ => some .invalidTicket

namespace Doorman

def reject (doorman : Doorman) (peer : Ip) (reason : RejectReason) :
    Decision × List ProbeEvent :=
  (.reject reason doorman.reaction, [⟨peer, reason⟩])

/-- Judges the bytes captured from a peer by the keys in force at that moment. -/
def judge (doorman : Doorman) (keys : Ticket.KeyList) (peer : Ip) (raw : Bytes) :
    Decision × List ProbeEvent :=
  if doorman.loopbackBypass && peer.isLoopback then (.pass, [])
  else
    match ticketFault? keys raw with
    | none => (.pass, [])
    | some reason => doorman.reject peer reason

end Doorman

def Metrics.countProbes (m : Metrics) (events : List ProbeEvent) : Metrics :=
  events.foldl (fun m e => m.countProbe e.reason) m

end Gatehouse
