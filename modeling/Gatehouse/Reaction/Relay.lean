import Gatehouse.Metrics.Counter
import Gatehouse.Reaction.Pump
import Gatehouse.Stream.Deed

namespace Gatehouse

open Gatehouse.Stream

/-- How long one direction may outlive the other. -/
def lingerTime : Nat := 2000

/-- A client and a site connected to each other, with one pump for either direction. Times are
milliseconds. -/
structure Relay where
  now : Nat
  /-- The connections, seen from the relay. -/
  client : Link
  site : Link
  forward : Pump
  backward : Pump
  /-- When the direction that is left is cut off. -/
  deadline : Option Nat
  returned : Bool
deriving Repr, DecidableEq

/-- How many bytes went either way, in whole chunks. -/
structure RelayStats where
  clientToSite : Nat
  siteToClient : Nat
deriving Repr, DecidableEq

namespace Relay

def start (now : Nat) (client site : Link) : Relay :=
  ⟨now, client, site, .start, .start, none, false⟩

def pump (relay : Relay) : Direction → Pump
  | .clientToSite => relay.forward
  | .siteToClient => relay.backward

def stats (relay : Relay) : RelayStats := ⟨relay.forward.counted, relay.backward.counted⟩

def conclude (relay : Relay) : Relay :=
  { relay with client := relay.client.drop, site := relay.site.drop, returned := true }

/-- The first pump to end starts the linger time, and the second ends the relay. -/
def notice (relay : Relay) : Relay :=
  if relay.forward.isEnded && relay.backward.isEnded then relay.conclude
  else if relay.forward.isEnded || relay.backward.isEnded then
    { relay with deadline := relay.deadline.or (some (relay.now + lingerTime)) }
  else relay

/-- One step of one pump, if it can take any. -/
def pumpStep? (relay : Relay) (direction : Direction) : Option Relay :=
  if relay.returned then none
  else
    match direction with
    | .clientToSite =>
      (relay.forward.step relay.client.inbound relay.site.outbound).map fun (pump, source, sink) =>
        notice { relay with
          forward := pump
          client := { relay.client with inbound := source }
          site := { relay.site with outbound := sink } }
    | .siteToClient =>
      (relay.backward.step relay.site.inbound relay.client.outbound).map fun (pump, source, sink) =>
        notice { relay with
          backward := pump
          site := { relay.site with inbound := source }
          client := { relay.client with outbound := sink } }

/-- The linger time is over. -/
def expire? (relay : Relay) : Option Relay :=
  match relay.deadline with
  | some t => if !relay.returned && decide (t ≤ relay.now) then some relay.conclude else none
  | none => none

/-- Something the relay can do by itself: first what the pumps can do, then the cut. -/
def step? (relay : Relay) : Option Relay :=
  (relay.pumpStep? .clientToSite).or ((relay.pumpStep? .siteToClient).or relay.expire?)

inductive Party
  | client
  | site
deriving Repr, DecidableEq

inductive Move
  /-- A pump takes a step. -/
  | pump (direction : Direction)
  /-- The linger time ends. -/
  | expire
  /-- Time passes. -/
  | elapse (time : Nat)
  /-- A party does something at its end. -/
  | party (who : Party) (deed : Deed)
deriving Repr, DecidableEq

/-- A deed of a party, at the far end of its connection. -/
def actParty (relay : Relay) : Party → Deed → Outcome × Relay
  | .client, deed =>
    let (outcome, link) := relay.client.actFar deed
    (outcome, { relay with client := link })
  | .site, deed =>
    let (outcome, link) := relay.site.actFar deed
    (outcome, { relay with site := link })

def act? (relay : Relay) : Move → Option (Outcome × Relay)
  | .pump direction => (relay.pumpStep? direction).map (.nothing, ·)
  | .expire => relay.expire?.map (.nothing, ·)
  | .elapse time => some (.nothing, { relay with now := relay.now + time })
  | .party who deed => some (relay.actParty who deed)

def workLeft (relay : Relay) : Nat :=
  relay.forward.workLeft relay.client.inbound + relay.backward.workLeft relay.site.inbound + 1

end Relay
end Gatehouse
