import Gatehouse.Capture.Intercept
import Gatehouse.Metrics.Basic
import Gatehouse.Reaction.Outcome

namespace Gatehouse

open Gatehouse.Stream Gatehouse.Capture

namespace Execution

/-- What is done to the world outside, in the order in which it is done. -/
inductive Effect
  /-- The capture buffer goes back to its pool. -/
  | release
  | dial (destination : String)
  /-- The client takes bytes. -/
  | write (bs : Bytes)
  /-- The client's stream ends. -/
  | shut
deriving Repr, DecidableEq

/-- How far an execution has come. -/
inductive Stage
  /-- The outermost layer is next. -/
  | deciding (reaction : Reaction)
  | pausing (wake : Nat) (next : Reaction)
  /-- Of the alert, `rest` is still to be written. -/
  | alerting (alert : Alert) (rest : Bytes)
  | dialing (destination : String) (replay : Bytes)
  /-- Of the replay, `rest` is still to be written. -/
  | replaying (destination : String) (replay rest : Bytes)
  | relaying (destination : String) (replayed : Nat) (relay : Relay)
  | returned (result : Except Fault Outcome)

end Execution

/-- An execution, with all that it touches. Times are milliseconds. -/
structure Execution where
  now : Nat
  stage : Execution.Stage
  /-- The connections seen from the gate, apart from those that a relay has. -/
  client : Link
  site : Option Link
  /-- The captured bytes, until they are released or replayed. -/
  hello : Option Buffer
  pool : Pool
  metrics : Metrics
  log : List (Nat × Execution.Effect)

namespace Execution

def start (reaction : Reaction) (client : Link) (hello : Option Buffer) (pool : Pool)
    (metrics : Metrics) : Execution :=
  ⟨0, .deciding reaction, client, none, hello, pool, metrics, []⟩

def note (execution : Execution) (effect : Effect) : Execution :=
  { execution with log := execution.log ++ [(execution.now, effect)] }

/-- Gives the capture buffer back. -/
def release (execution : Execution) : Execution :=
  { execution with hello := none, pool := execution.pool.releaseAny execution.hello }.note .release

def shut (execution : Execution) : Execution :=
  { execution with client := execution.client.shutdown }.note .shut

/-- The execution is over, and both connections are given up. -/
def conclude (execution : Execution) (result : Except Fault Outcome) : Execution :=
  { execution with
    stage := .returned result
    client := execution.client.drop
    site := execution.site.map Link.drop }

/-- Acts on the outermost layer. After a delay nothing is left to be watched only. -/
def decide (execution : Execution) : Reaction → Execution
  | .delayed delay next => { execution with stage := .pausing (execution.now + delay) next }
  | .alert alert => { execution.release with stage := .alerting alert alert.record }
  | .close | .none => execution.release.shut.conclude (.ok .closed)
  | .reflect destination =>
    { execution.release.note (.dial destination) with
      stage := .dialing destination (captured execution.hello) }

def sendAlert? (execution : Execution) (alert : Alert) (rest : Bytes) : Option Execution :=
  if rest.isEmpty then some (execution.shut.conclude (.ok (.alerted alert)))
  else
    match execution.client.write rest with
    | (.waiting, _) => none
    | (.failed fault, _) => some (execution.shut.conclude (.error (.broken fault)))
    | (.done n, client) =>
      some { execution.note (.write (rest.take n)) with
        client := client, stage := .alerting alert (rest.drop n) }

def replay? (execution : Execution) (destination : String) (replay rest : Bytes) (site : Link) :
    Option Execution :=
  if rest.isEmpty then
    some { execution with
      stage := .relaying destination replay.length (.start execution.now execution.client site) }
  else
    match site.write rest with
    | (.waiting, _) => none
    | (.failed fault, _) => some (execution.shut.conclude (.error (.broken fault)))
    | (.done n, site) =>
      some { execution with
        site := some site, stage := .replaying destination replay (rest.drop n) }

/-- What was carried to the site besides the replay, and what came from it. -/
def total (replayed : Nat) (stats : RelayStats) : RelayStats :=
  ⟨stats.clientToSite + replayed, stats.siteToClient⟩

/-- A relay that has returned ends the execution, and its bytes are counted. -/
def relayed (execution : Execution) (destination : String) (replayed : Nat) (relay : Relay) :
    Execution :=
  if relay.returned then
    let stats := total replayed relay.stats
    { execution with
      client := relay.client
      site := some relay.site
      metrics := execution.metrics.countRelay stats.clientToSite stats.siteToClient }.conclude
        (.ok (.reflected destination stats))
  else { execution with stage := .relaying destination replayed relay }

def step? (execution : Execution) : Option Execution :=
  match execution.stage with
  | .deciding reaction => some (execution.decide reaction)
  | .pausing wake next =>
    if wake ≤ execution.now then some { execution with stage := .deciding next } else none
  | .alerting alert rest => execution.sendAlert? alert rest
  | .dialing _ _ => none
  | .replaying destination replay rest =>
    match execution.site with
    | some site => execution.replay? destination replay rest site
    | none => none
  | .relaying destination replayed relay =>
    relay.step?.map (execution.relayed destination replayed)
  | .returned _ => none

def answer? (execution : Execution) (answer : Except String Link) : Option Execution :=
  match execution.stage, answer with
  | .dialing destination replay, .ok site =>
    some { execution with site := some site, stage := .replaying destination replay replay }
  | .dialing destination _, .error cause =>
    some (execution.shut.conclude (.error (.unreachable destination cause)))
  | _, _ => none

def elapse (execution : Execution) (time : Nat) : Execution :=
  let stage := match execution.stage with
    | .relaying destination replayed relay =>
      .relaying destination replayed { relay with now := relay.now + time }
    | stage => stage
  { execution with now := execution.now + time, stage := stage }

/-- The client's connection, whoever has it. -/
def clientLink (execution : Execution) : Link :=
  match execution.stage with
  | .relaying _ _ relay => relay.client
  | _ => execution.client

def siteLink? (execution : Execution) : Option Link :=
  match execution.stage with
  | .relaying _ _ relay => some relay.site
  | _ => execution.site

def setClientLink (execution : Execution) (link : Link) : Execution :=
  match execution.stage with
  | .relaying destination replayed relay =>
    { execution with stage := .relaying destination replayed { relay with client := link } }
  | _ => { execution with client := link }

def setSiteLink (execution : Execution) (link : Link) : Execution :=
  match execution.stage with
  | .relaying destination replayed relay =>
    { execution with stage := .relaying destination replayed { relay with site := link } }
  | _ => { execution with site := execution.site.map fun _ => link }

inductive Move
  /-- The execution takes a step. -/
  | proceed
  | answer (answer : Except String Link)
  | elapse (time : Nat)
  /-- A party does something at its end. -/
  | party (who : Relay.Party) (deed : Stream.Deed)

/-- What a move gives and leads to, if it is possible. -/
def act? (execution : Execution) : Move → Option (Stream.Outcome × Execution)
  | .proceed => execution.step?.map (.nothing, ·)
  | .answer answer => (execution.answer? answer).map (.nothing, ·)
  | .elapse time => some (.nothing, execution.elapse time)
  | .party .client deed =>
    let (outcome, link) := execution.clientLink.actFar deed
    some (outcome, execution.setClientLink link)
  | .party .site deed =>
    execution.siteLink?.map fun site =>
      let (outcome, link) := site.actFar deed
      (outcome, execution.setSiteLink link)

def result? (execution : Execution) : Option (Except Fault Outcome) :=
  match execution.stage with
  | .returned result => some result
  | _ => none

def dialed (execution : Execution) : List String :=
  execution.log.filterMap fun
    | (_, .dial destination) => some destination
    | _ => none

end Execution
end Gatehouse
