import Gatehouse.Proofs.Reaction.Way
import Gatehouse.Reaction.Execution

namespace Gatehouse
open Gatehouse.Stream Gatehouse.Capture

namespace Execution

/-- What can happen during an execution if the pumps of its relay take their steps in any order. -/
inductive Turn
  | move (move : Move)
  /-- A pump takes a step. -/
  | pump (direction : Direction)
  /-- The linger time ends. -/
  | expire

/-- A step that the relay takes. -/
def relayStep? (execution : Execution) (step? : Relay → Option Relay) : Option Execution :=
  match execution.stage with
  | .relaying destination replayed relay =>
    (step? relay).map (execution.relayed destination replayed)
  | _ => none

def turn? (execution : Execution) : Turn → Option (Stream.Outcome × Execution)
  | .move move => execution.act? move
  | .pump direction => (execution.relayStep? (·.pumpStep? direction)).map (.nothing, ·)
  | .expire => (execution.relayStep? Relay.expire?).map (.nothing, ·)

/-- In which nothing is sent or received. -/
def silence : Direction → Bytes := fun _ => []

/-- In which something goes in one direction only. -/
def along (direction : Direction) (bs : Bytes) : Direction → Bytes := fun other =>
  if other = direction then bs else []

/-- The bytes that a site has sent before the dial is answered. -/
def greeting : Except String Link → Direction → Bytes
  | .ok site => along .siteToClient site.inbound.buffered
  | .error _ => silence

namespace Turn

/-- A dial gives a connection that nothing was written to yet. -/
def Fresh : Turn → Prop
  | .move (.answer (.ok site)) => site.outbound.buffered = []
  | _ => True

/-- The bytes that are put into the streams, by their senders. -/
def sent : Turn → Stream.Outcome → Direction → Bytes
  | .move (.party .client deed), outcome => along .clientToSite (deed.sent outcome)
  | .move (.party .site deed), outcome => along .siteToClient (deed.sent outcome)
  | .move (.answer answer), _ => greeting answer
  | _, _ => silence

/-- The bytes that are taken out of the streams, by their receivers. -/
def received : Turn → Stream.Outcome → Direction → Bytes
  | .move (.party .client _), outcome => along .siteToClient outcome.received
  | .move (.party .site _), outcome => along .clientToSite outcome.received
  | _, _ => silence

end Turn

/-- What turns give, one after the other, and the execution after them, if all of them are
possible. -/
def play? (execution : Execution) : List Turn → Option (List (Turn × Stream.Outcome) × Execution)
  | [] => some ([], execution)
  | turn :: rest => do
    let (outcome, execution) ← execution.turn? turn
    let (log, execution) ← execution.play? rest
    return ((turn, outcome) :: log, execution)

/-- All that was put into a stream. -/
def sentIn (log : List (Turn × Stream.Outcome)) (direction : Direction) : Bytes :=
  log.flatMap fun e => e.1.sent e.2 direction

/-- All that was taken out of a stream. -/
def receivedIn (log : List (Turn × Stream.Outcome)) (direction : Direction) : Bytes :=
  log.flatMap fun e => e.1.received e.2 direction

variable {execution execution' : Execution}

theorem play?_cons {turn : Turn} {rest : List Turn} {log : List (Turn × Stream.Outcome)} :
    execution.play? (turn :: rest) = some (log, execution') ↔
      ∃ outcome next later, execution.turn? turn = some (outcome, next) ∧
        next.play? rest = some (later, execution') ∧ log = (turn, outcome) :: later := by
  simp only [play?, Option.bind_eq_bind, Option.bind_eq_some_iff, Prod.exists, Option.pure_def,
    Option.some.injEq, Prod.mk.injEq]
  constructor
  · rintro ⟨outcome, next, hturn, later, last, hrest, rfl, rfl⟩
    exact ⟨outcome, next, later, hturn, hrest, rfl⟩
  · rintro ⟨outcome, next, later, hturn, hrest, rfl⟩
    exact ⟨outcome, next, hturn, later, execution', hrest, rfl, rfl⟩

/-- A turn as what the relay does by itself in it. -/
inductive Turn.Works : Turn → Relay.Move → Prop
  | pump (direction : Direction) : Works (.pump direction) (.pump direction)
  | expire : Works .expire .expire
  | own_pump (direction : Direction) : Works (.move .proceed) (.pump direction)
  | own_expire : Works (.move .proceed) .expire

/-- What a turn can be. -/
inductive Went (execution : Execution) : Turn → Stream.Outcome → Execution → Prop
  | decided {reaction : Reaction} (stage : execution.stage = .deciding reaction) :
      Went execution (.move .proceed) .nothing (execution.decide reaction)
  | woke {wake : Nat} {next : Reaction} (stage : execution.stage = .pausing wake next)
      (due : wake ≤ execution.now) :
      Went execution (.move .proceed) .nothing { execution with stage := .deciding next }
  | wrote {alert : Alert} {front rest : Bytes} (stage : execution.stage = .alerting alert (front ++ rest))
      (flowing : execution.client.outbound.state = .flowing) :
      Went execution (.move .proceed) .nothing
        { execution.note (.write front) with
          client := { execution.client with
            outbound := { execution.client.outbound with
              buffered := execution.client.outbound.buffered ++ front } }
          stage := .alerting alert rest }
  | alerted {alert : Alert} (stage : execution.stage = .alerting alert []) :
      Went execution (.move .proceed) .nothing (execution.shut.conclude (.ok (.alerted alert)))
  | unalerted {alert : Alert} {rest : Bytes} (stage : execution.stage = .alerting alert rest)
      (rest_ne : rest ≠ []) :
      Went execution (.move .proceed) .nothing
        (execution.shut.conclude (.error (.broken .brokenPipe)))
  | connected {destination : String} {replay : Bytes}
      (stage : execution.stage = .dialing destination replay) (site : Link) :
      Went execution (.move (.answer (.ok site))) .nothing
        { execution with site := some site, stage := .replaying destination replay replay }
  | unreached {destination : String} {replay : Bytes}
      (stage : execution.stage = .dialing destination replay) (cause : String) :
      Went execution (.move (.answer (.error cause))) .nothing
        (execution.shut.conclude (.error (.unreachable destination cause)))
  | passed {destination : String} {replay front rest : Bytes} {site : Link}
      (stage : execution.stage = .replaying destination replay (front ++ rest))
      (there : execution.site = some site) (flowing : site.outbound.state = .flowing) :
      Went execution (.move .proceed) .nothing
        { execution with
          site := some { site with
            outbound := { site.outbound with buffered := site.outbound.buffered ++ front } }
          stage := .replaying destination replay rest }
  | replayed {destination : String} {replay : Bytes} {site : Link}
      (stage : execution.stage = .replaying destination replay [])
      (there : execution.site = some site) :
      Went execution (.move .proceed) .nothing
        { execution with
          stage := .relaying destination replay.length (.start execution.now execution.client site) }
  | unreplayed {destination : String} {replay rest : Bytes}
      (stage : execution.stage = .replaying destination replay rest) (rest_ne : rest ≠ []) :
      Went execution (.move .proceed) .nothing
        (execution.shut.conclude (.error (.broken .brokenPipe)))
  | relayed {destination : String} {replayed : Nat} {relay relay' : Relay} {turn : Turn}
      {move : Relay.Move} (stage : execution.stage = .relaying destination replayed relay)
      (works : turn.Works move) (act : relay.act? move = some (.nothing, relay')) :
      Went execution turn .nothing (execution.relayed destination replayed relay')
  | elapsed (time : Nat) : Went execution (.move (.elapse time)) .nothing (execution.elapse time)
  | client (deed : Deed) :
      Went execution (.move (.party .client deed)) (execution.clientLink.actFar deed).1
        (execution.setClientLink (execution.clientLink.actFar deed).2)
  | site {site : Link} (there : execution.siteLink? = some site) (deed : Deed) :
      Went execution (.move (.party .site deed)) (site.actFar deed).1
        (execution.setSiteLink (site.actFar deed).2)

theorem went_sendAlert {alert : Alert} {rest : Bytes} (hstage : execution.stage = .alerting alert rest)
    (hstep : execution.sendAlert? alert rest = some execution') :
    Went execution (.move .proceed) .nothing execution' := by
  unfold sendAlert? at hstep
  split at hstep
  · rename_i hempty
    obtain rfl := List.isEmpty_iff.mp hempty
    obtain rfl := Option.some.inj hstep
    exact .alerted hstage
  · rename_i hsome
    rw [List.isEmpty_iff] at hsome
    rcases execution.client.outbound.write_cases rest with
      ⟨result, hresult, hwrite⟩ | ⟨k, -, hflow, hwrite⟩
    · simp only [Link.write, hwrite] at hstep
      rcases hresult with rfl | ⟨rfl, -⟩
      · simp at hstep
      · obtain rfl := Option.some.inj hstep
        exact .unalerted hstage hsome
    · simp only [Link.write, hwrite] at hstep
      obtain rfl := Option.some.inj hstep
      rw [← List.take_append_drop k rest] at hstage
      exact .wrote hstage hflow

theorem went_replay {destination : String} {replay rest : Bytes} {site : Link}
    (hstage : execution.stage = .replaying destination replay rest)
    (hsite : execution.site = some site)
    (hstep : execution.replay? destination replay rest site = some execution') :
    Went execution (.move .proceed) .nothing execution' := by
  unfold replay? at hstep
  split at hstep
  · rename_i hempty
    obtain rfl := List.isEmpty_iff.mp hempty
    obtain rfl := Option.some.inj hstep
    exact .replayed hstage hsite
  · rename_i hsome
    rw [List.isEmpty_iff] at hsome
    rcases site.outbound.write_cases rest with ⟨result, hresult, hwrite⟩ | ⟨k, -, hflow, hwrite⟩
    · simp only [Link.write, hwrite] at hstep
      rcases hresult with rfl | ⟨rfl, -⟩
      · simp at hstep
      · obtain rfl := Option.some.inj hstep
        exact .unreplayed hstage hsome
    · simp only [Link.write, hwrite] at hstep
      obtain rfl := Option.some.inj hstep
      rw [← List.take_append_drop k rest] at hstage
      exact .passed hstage hsite hflow

/-- What a relay does by itself is a move of it. -/
theorem act_of_step {relay relay' : Relay} (hstep : relay.step? = some relay') :
    ∃ move, Turn.Works (.move .proceed) move ∧ relay.act? move = some (.nothing, relay') := by
  simp only [Relay.step?, Option.or_eq_some_iff] at hstep
  rcases hstep with hforward | ⟨-, hbackward | ⟨-, hexpire⟩⟩
  · exact ⟨_, .own_pump .clientToSite, by rw [Relay.act?, hforward, Option.map_some]⟩
  · exact ⟨_, .own_pump .siteToClient, by rw [Relay.act?, hbackward, Option.map_some]⟩
  · exact ⟨_, .own_expire, by rw [Relay.act?, hexpire, Option.map_some]⟩

theorem went_step (hstep : execution.step? = some execution') :
    Went execution (.move .proceed) .nothing execution' := by
  unfold step? at hstep
  split at hstep
  · rename_i reaction hstage
    obtain rfl := Option.some.inj hstep
    exact .decided hstage
  · rename_i wake next hstage
    split at hstep
    · rename_i hdue
      obtain rfl := Option.some.inj hstep
      exact .woke hstage hdue
    · simp at hstep
  · rename_i alert rest hstage
    exact went_sendAlert hstage hstep
  · simp at hstep
  · rename_i destination replay rest hstage
    cases hsite : execution.site with
    | none => simp [hsite] at hstep
    | some site =>
      simp only [hsite] at hstep
      exact went_replay hstage hsite hstep
  · rename_i destination replayed relay hstage
    obtain ⟨relay', hrelay, rfl⟩ := Option.map_eq_some_iff.mp hstep
    obtain ⟨move, hworks, hact⟩ := act_of_step hrelay
    exact .relayed hstage hworks hact
  · simp at hstep

theorem went_relayStep {step? : Relay → Option Relay} {turn : Turn} {move : Relay.Move}
    (hworks : turn.Works move) (hmove : ∀ relay, relay.act? move = (step? relay).map (.nothing, ·))
    (hstep : execution.relayStep? step? = some execution') :
    Went execution turn .nothing execution' := by
  unfold relayStep? at hstep
  split at hstep
  · rename_i destination replayed relay hstage
    obtain ⟨relay', hrelay, rfl⟩ := Option.map_eq_some_iff.mp hstep
    exact .relayed hstage hworks (by rw [hmove, hrelay, Option.map_some])
  · simp at hstep

theorem went {turn : Turn} {outcome : Stream.Outcome}
    (hturn : execution.turn? turn = some (outcome, execution')) :
    Went execution turn outcome execution' := by
  cases turn with
  | pump direction =>
    simp only [turn?, Option.map_eq_some_iff, Prod.mk.injEq] at hturn
    obtain ⟨_, hstep, rfl, rfl⟩ := hturn
    exact went_relayStep (.pump direction) (fun _ => rfl) hstep
  | expire =>
    simp only [turn?, Option.map_eq_some_iff, Prod.mk.injEq] at hturn
    obtain ⟨_, hstep, rfl, rfl⟩ := hturn
    exact went_relayStep .expire (fun _ => rfl) hstep
  | move move =>
    cases move with
    | proceed =>
      simp only [turn?, act?, Option.map_eq_some_iff, Prod.mk.injEq] at hturn
      obtain ⟨_, hstep, rfl, rfl⟩ := hturn
      exact went_step hstep
    | answer answer =>
      simp only [turn?, act?, Option.map_eq_some_iff, Prod.mk.injEq] at hturn
      obtain ⟨_, hstep, rfl, rfl⟩ := hturn
      unfold answer? at hstep
      split at hstep
      · rename_i destination replay site hstage
        obtain rfl := Option.some.inj hstep
        exact .connected hstage site
      · rename_i destination replay cause hstage
        obtain rfl := Option.some.inj hstep
        exact .unreached hstage cause
      · simp at hstep
    | elapse time =>
      obtain ⟨rfl, rfl⟩ := Prod.mk.inj (Option.some.inj hturn)
      exact .elapsed time
    | party who deed =>
      cases who with
      | client =>
        obtain ⟨rfl, rfl⟩ := Prod.mk.inj (Option.some.inj hturn)
        exact .client deed
      | site =>
        simp only [turn?, act?, Option.map_eq_some_iff, Prod.mk.injEq] at hturn
        obtain ⟨site, hsite, rfl, rfl⟩ := hturn
        exact .site hsite deed

/-- What holds after every turn if it held before, holds after a run. -/
theorem preserved_play {holds : Execution → Prop}
    (hturns : ∀ {before after : Execution} {turn : Turn} {outcome : Stream.Outcome}, holds before →
      Went before turn outcome after → holds after)
    (h : holds execution) {turns : List Turn} {log : List (Turn × Stream.Outcome)}
    (hplay : execution.play? turns = some (log, execution')) : holds execution' := by
  induction turns generalizing execution log with
  | nil =>
    obtain ⟨rfl, rfl⟩ := Prod.mk.inj (Option.some.inj hplay)
    exact h
  | cons turn rest ih =>
    obtain ⟨outcome, next, later, hturn, hrest, rfl⟩ := play?_cons.mp hplay
    exact ih (hturns h (went hturn)) hrest

end Execution
end Gatehouse
