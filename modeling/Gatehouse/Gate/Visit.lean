import Gatehouse.Admission
import Gatehouse.Capture.Desk
import Gatehouse.Rdp.Negotiation

namespace Gatehouse

open Gatehouse.Capture

namespace Visit

/-- What the TLS library does with its half of the connection, and the peer at the far end. -/
inductive Deed
  | read (n : Nat)
  | write (bs : Bytes)
  | flush
  | shutdown
  | peerWrite (bs : Bytes)
  | peerRead
  | peerClose
deriving Repr, DecidableEq

def Deed.toAction : Deed → Capture.Action
  | .read n => .read n
  | .write bs => .write bs
  | .flush => .flush
  | .shutdown => .shutdown
  | .peerWrite bs => .peerWrite bs
  | .peerRead => .peerRead
  | .peerClose => .peerClose

/-- What the library makes of the bytes until the deadline. -/
inductive Offer
  | hello
  | refused
  | tooLate
deriving Repr, DecidableEq

inductive Ending
  | finished
  | failed
  | tooLate
deriving Repr, DecidableEq

/-- What the gate does that others can see, in the order in which it does it. -/
inductive Event
  | probe (event : ProbeEvent)
  | count (outcome : ConnectionOutcome)
  /-- The interception ends, and the handshake goes on. -/
  | letThrough
  /-- An accepted connection is handed on. -/
  | accept
  /-- A reaction is executed on the socket, with what was captured from it. -/
  | react (reaction : Reaction) (socket : Stream.Link) (capture : Option Buffer)
deriving Repr, DecidableEq

end Visit

/-- A visit, as far as others decide how it goes. -/
structure Visit where
  peer : Ip
  /-- What came of the exchange before TLS, if there is one. -/
  verdict : Option Rdp.Verdict
  /-- What is done while the library waits for a hello. -/
  before : List Visit.Deed
  offer : Visit.Offer
  /-- The keys in force when the decision is made. -/
  keys : Ticket.KeyList
  /-- What is done after the decision to let the handshake go on. -/
  after : List Visit.Deed
  ending : Visit.Ending

namespace Visit

/-- A connection after a sequence of deeds. -/
def stir (post : Post) (deeds : List Deed) : Post :=
  deeds.foldl (fun post deed => (post.act deed.toAction).2.2) post

/-- The decision, and the connection after it. The captured bytes are shown to the doorman if the
library has found a hello in them; otherwise they are passed over. -/
def decide (doorman : Doorman) (visit : Visit) (post : Post) :
    (Decision × List ProbeEvent) × Post :=
  let (answer, _, post) := post.act .inspect
  let decision := match visit.offer, answer with
    | .hello, .shown (some raw) => doorman.judge visit.keys visit.peer raw
    | .hello, _ => doorman.reject visit.peer .malformedHello
    | .refused, _ => doorman.reject visit.peer .malformedHello
    | .tooLate, _ => doorman.reject visit.peer .handshakeTimeout
  (decision, post)

/-- Whether the handshake goes on: there must be a hello, and the decision must allow it or only
watch. -/
def goesOn (visit : Visit) : Decision → Bool
  | .pass => visit.offer == .hello
  | .reject _ reaction => visit.offer == .hello && reaction.isMonitorOnly

def complete (visit : Visit) (post : Post) : List Event × Post :=
  let (_, _, post) := post.act .passThrough
  let post := stir post visit.after
  let events := match visit.ending with
    | .finished => [.letThrough, .count .accepted, .accept]
    | .failed => [.letThrough, .count .handshakeFailed]
    | .tooLate => [.letThrough, .count .timeout]
  (events, post)

/-- The reaction that a decision asks for. There always is one to be had: who is admitted without a
hello is closed on. -/
def reactionTo : Decision → Reaction
  | .reject _ reaction => reaction
  | .pass => .close

/-- The socket is taken away from the library and reacted on. Nothing is done if it is gone. -/
def react (reaction : Reaction) (post : Post) : List Event × Post :=
  match post.intercept.detach with
  | (some detached, intercept) =>
    ([.count .rejected, .react reaction detached.socket detached.capture],
      { post with intercept := intercept })
  | (none, intercept) => ([], { post with intercept := intercept })

def handle (doorman : Doorman) (visit : Visit) (post : Post) : List Event × Post :=
  if visit.verdict = some .refused then ([.count .refused], post)
  else
    let post := stir post visit.before
    let ((decision, probes), post) := visit.decide doorman post
    let (events, post) :=
      if visit.goesOn decision then visit.complete post else react (reactionTo decision) post
    (probes.map .probe ++ events, post)

def tally (m : Metrics) (events : List Event) : Metrics :=
  events.foldl (fun m e =>
    match e with
    | .probe event => m.countProbe event.reason
    | .count outcome => m.countConnection outcome
    | _ => m) m

end Visit
end Gatehouse
