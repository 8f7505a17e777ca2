import Gatehouse.Proofs.Reaction.Turns

namespace Gatehouse
open Gatehouse.Stream Gatehouse.Capture

/-- A reaction bears a direction if nothing goes there but what the sender has sent. To the site that
is always so; to the client only if no alert can come between. -/
def Reaction.Bears (innermost : Reaction) : Direction → Prop
  | .clientToSite => True
  | .siteToClient => ∃ destination, innermost = .reflect destination

namespace Execution

/-- What has left the client's stream, or was captured from it, and is still to be written to a
site. -/
def upcoming (execution : Execution) : Bytes :=
  match execution.stage with
  | .deciding _ | .pausing _ _ => captured execution.hello
  | .dialing _ replay => replay
  | .replaying _ _ rest => rest
  | .relaying _ _ relay => relay.forward.held
  | .alerting _ _ | .returned _ => []

/-- There may still be a site to come. -/
def Stage.expectsSite : Stage → Bool
  | .deciding _ | .pausing _ _ | .dialing _ _ => true
  | _ => false

/-- Where the site reads from. Nothing is there before the site is. -/
def sink (execution : Execution) : Pipe :=
  match execution.siteLink? with
  | some site => site.outbound
  | none => ⟨0, [], if execution.stage.expectsSite then .flowing else .finished⟩

/-- Where the site writes to. Nothing comes from there before the site is. -/
def origin (execution : Execution) : Pipe :=
  match execution.siteLink? with
  | some site => site.inbound
  | none => .empty 0

/-- What has left the site's stream and is still to be written to the client. -/
def returning (execution : Execution) : Bytes :=
  match execution.stage with
  | .relaying _ _ relay => relay.backward.held
  | _ => []

def way (execution : Execution) : Direction → Way
  | .clientToSite => ⟨execution.clientLink.inbound, execution.upcoming, execution.sink⟩
  | .siteToClient => ⟨execution.origin, execution.returning, execution.clientLink.outbound⟩

/-- Nothing has been given up in a direction yet. -/
def going (execution : Execution) (direction : Direction) : Bool :=
  match execution.stage with
  | .relaying _ _ relay => !(relay.pump direction).isEnded
  | .alerting _ _ | .returned _ => false
  | _ => true

/-- Nothing has been passed on to the client, and nothing will be if there is a result. -/
def hushed (execution : Execution) : Bool :=
  match execution.stage with
  | .relaying _ _ _ | .returned (.ok _) => false
  | _ => true

/-- What happens to a direction: no byte is given up, or it is closed for good. -/
inductive Carries (sent got : Bytes) (execution execution' : Execution) (direction : Direction) : Prop
  | passes (h : Passing (execution.way direction) sent got (execution'.way direction))
      (going : execution'.going direction = execution.going direction)
  | closes (h : Closed (execution.way direction) (execution'.way direction)) (none_sent : sent = [])
      (none_got : got = []) (spent : execution'.going direction = false)

/-- The stages that an execution can come to, by the innermost layer of its reaction. -/
def Stage.Follows (innermost : Reaction) : Stage → Prop
  | .deciding next | .pausing _ next => next.innermost = innermost
  | .alerting alert _ => innermost = .alert alert
  | .dialing destination _ | .replaying destination _ _ | .relaying destination _ _ =>
    innermost = .reflect destination
  | .returned _ => True

def Stage.isBeforeSite : Stage → Bool
  | .deciding _ | .pausing _ _ | .alerting _ _ | .dialing _ _ => true
  | _ => false

structure Sound (innermost : Reaction) (execution : Execution) : Prop where
  stage : execution.stage.Follows innermost
  early : execution.stage.isBeforeSite = true → execution.site = none

/-- All that a turn does, with the bytes that are sent and received in it. -/
structure Turned (innermost : Reaction) (sent got : Direction → Bytes)
    (execution execution' : Execution) : Prop where
  sound : execution'.Sound innermost
  carries : ∀ direction, innermost.Bears direction →
    Carries (sent direction) (got direction) execution execution' direction
  hushed : innermost.Bears .siteToClient → execution'.hushed = true → execution.hushed = true ∧
    Drained execution.client.outbound (got .siteToClient) execution'.client.outbound
  failed : ∀ fault, execution'.result? = some (.error fault) →
    execution.result? = some (.error fault) ∨ execution'.client.outbound.state ≠ .flowing

variable {innermost : Reaction} {execution execution' : Execution}

/-- Only a relay has connections of its own. -/
def Stage.isRelaying : Stage → Bool
  | .relaying _ _ _ => true
  | _ => false

theorem clientLink_eq (h : execution.stage.isRelaying = false) :
    execution.clientLink = execution.client := by
  unfold clientLink
  split
  · simp_all [Stage.isRelaying]
  · rfl

theorem siteLink?_eq (h : execution.stage.isRelaying = false) :
    execution.siteLink? = execution.site := by
  unfold siteLink?
  split
  · simp_all [Stage.isRelaying]
  · rfl

theorem Turned.still (hsound : execution'.Sound innermost)
    (hway : ∀ direction, execution'.way direction = execution.way direction)
    (hgoing : ∀ direction, execution'.going direction = execution.going direction)
    (hhushed : execution'.hushed = execution.hushed)
    (hclient : execution'.client = execution.client)
    (hresult : execution'.result? = execution.result?) :
    Turned innermost silence silence execution execution' := by
  refine ⟨hsound, fun direction _ => .passes ?_ (hgoing direction), fun _ h => ?_, fun fault h => ?_⟩
  · rw [hway]
    exact .still _
  · rw [hclient]
    exact ⟨hhushed ▸ h, .refl _⟩
  · exact .inl (hresult ▸ h)

theorem closed_shut_conclude (h : execution.stage.isRelaying = false) (result : Except Fault Outcome)
    (direction : Direction) :
    Closed (execution.way direction) ((execution.shut.conclude result).way direction) := by
  have hclient : (execution.shut.conclude result).clientLink =
      execution.clientLink.shutdown.drop := by
    rw [clientLink_eq h]
    rfl
  have hsite : (execution.shut.conclude result).siteLink? = execution.siteLink?.map Link.drop := by
    rw [siteLink?_eq h]
    rfl
  cases direction with
  | clientToSite =>
    have hsink : (execution.shut.conclude result).sink = execution.sink.finish := by
      simp only [sink, hsite]
      cases execution.siteLink? with
      | none => cases execution.stage.expectsSite <;> rfl
      | some site => rfl
    have hsource : Later execution.clientLink.inbound
        (execution.shut.conclude result).clientLink.inbound := by
      rw [hclient]
      exact execution.clientLink.inbound.later_finish
    exact ⟨hsource, hsink⟩
  | siteToClient =>
    have hsource : Later execution.origin (execution.shut.conclude result).origin := by
      simp only [origin, hsite]
      cases execution.siteLink? with
      | none => exact .refl _
      | some site => exact site.inbound.later_finish
    have hsink : (execution.shut.conclude result).clientLink.outbound =
        execution.clientLink.outbound.finish := by
      rw [hclient]
      exact Pipe.finish_finish _
    exact ⟨hsource, hsink⟩

/-- An end before the relay shuts the client without having passed anything on to it. -/
theorem turned_shut_conclude (hstage : execution.stage.isRelaying = false)
    (hhushed : execution.hushed = true) (result : Except Fault Outcome) :
    Turned innermost silence silence execution (execution.shut.conclude result) := by
  have hshut : (execution.shut.conclude result).client.outbound =
      execution.client.outbound.finish := Pipe.finish_finish _
  refine ⟨⟨trivial, fun he => by contradiction⟩,
    fun direction _ => .closes (closed_shut_conclude hstage result direction) rfl rfl rfl,
    fun _ _ => ⟨hhushed, ?_⟩, fun _ _ => .inr (Pipe.state_finish_ne _)⟩
  rw [hshut]
  exact .finish _

theorem Sound.decide {reaction : Reaction} (h : execution.Sound innermost)
    (hstage : execution.stage = .deciding reaction) :
    Turned innermost silence silence execution (execution.decide reaction) := by
  have hrelay : execution.stage.isRelaying = false := by rw [hstage]; rfl
  have hclosed : Turned innermost silence silence execution
      (execution.release.shut.conclude (.ok .closed)) := by
    refine ⟨⟨trivial, fun he => by contradiction⟩, fun direction _ => .closes ?_ rfl rfl rfl,
      fun _ he => by contradiction, fun _ _ => .inr (Pipe.state_finish_ne _)⟩
    -- Giving the buffer back leaves both connections as they are.
    have hreleased := @closed_shut_conclude execution.release hrelay (.ok .closed) direction
    cases direction <;> exact ⟨hreleased.source, hreleased.sink⟩
  obtain ⟨now, stage, client, site, hello, pool, metrics, log⟩ := execution
  simp only at hstage
  subst hstage
  obtain rfl : site = none := h.early rfl
  have hinner : reaction.innermost = innermost := h.stage
  cases reaction with
  | delayed delay next =>
    refine .still ⟨hinner, fun _ => rfl⟩ ?_ (fun _ => rfl) rfl rfl rfl
    intro direction
    cases direction <;> rfl
  | reflect destination =>
    refine .still ⟨hinner.symm, fun _ => rfl⟩ ?_ (fun _ => rfl) rfl rfl rfl
    intro direction
    cases direction <;> rfl
  | alert alert =>
    refine ⟨⟨hinner.symm, fun _ => rfl⟩, fun direction hbears => ?_, fun hbears _ => ?_,
      fun _ he => by contradiction⟩
    · cases direction with
      | clientToSite => exact .closes ⟨.refl _, rfl⟩ rfl rfl rfl
      | siteToClient =>
        obtain ⟨destination, hreflects⟩ := hbears
        exact absurd (hinner.trans hreflects) (by simp [Reaction.innermost])
    · obtain ⟨destination, hreflects⟩ := hbears
      exact absurd (hinner.trans hreflects) (by simp [Reaction.innermost])
  | close | none => exact hclosed

theorem way_of_relaying {other : String} {replayed : Nat} {relay : Relay}
    (h : execution.stage = .relaying other replayed relay) (direction : Direction) :
    execution.way direction = relay.way direction := by
  cases direction <;>
    simp [way, clientLink, upcoming, sink, siteLink?, origin, returning, h, Relay.way]

theorem going_of_relaying {other : String} {replayed : Nat} {relay : Relay}
    (h : execution.stage = .relaying other replayed relay) (direction : Direction) :
    execution.going direction = !(relay.pump direction).isEnded := by simp [going, h]

/-- What the relay does is what the execution does, and it ends with the relay. -/
theorem Sound.relayed (h : execution.Sound innermost) {other : String} {replayed : Nat}
    {relay relay' : Relay} (hstage : execution.stage = .relaying other replayed relay)
    (hgoes : ∀ direction, relay.Goes relay' direction) :
    Turned innermost silence silence execution (execution.relayed other replayed relay') := by
  have hreflects : innermost = .reflect other := by simpa [hstage, Stage.Follows] using h.stage
  have hway := way_of_relaying hstage
  have hgoing := going_of_relaying hstage
  unfold Execution.relayed
  split
  · rename_i hreturned
    refine ⟨⟨trivial, fun he => by contradiction⟩, fun direction _ => .closes ?_ rfl rfl rfl,
      fun _ hq => by contradiction, fun _ he => by simp [result?, Execution.conclude] at he⟩
    rw [hway]
    cases hgoes direction with
    | passes _ running _ => simp [hreturned] at running
    | closes hclosed _ => cases direction <;> exact hclosed.finish _
  · rename_i hreturned
    refine ⟨⟨hreflects, fun he => by contradiction⟩, fun direction _ => ?_,
      fun _ hq => by contradiction, fun _ he => by contradiction⟩
    have hway' : ({ execution with stage := .relaying other replayed relay' } : Execution).way
        direction = relay'.way direction := by cases direction <;> rfl
    cases hgoes direction with
    | passes hpass _ ended =>
      refine .passes ?_ ?_
      · rw [hway, hway']
        exact hpass
      · rw [hgoing, ← ended]
        rfl
    | closes hclosed spent =>
      refine .closes ?_ rfl rfl ?_
      · rw [hway, hway']
        exact hclosed
      · simpa [going] using spent.resolve_left hreturned

theorem goes_of_works {turn : Turn} {move : Relay.Move} {relay relay' : Relay}
    (hworks : turn.Works move) (hact : relay.act? move = some (.nothing, relay'))
    (direction : Direction) : relay.Goes relay' direction := by
  cases hworks with
  | pump | own_pump =>
    obtain ⟨_, hstep, he⟩ := Option.map_eq_some_iff.mp hact
    obtain ⟨-, rfl⟩ := Prod.mk.inj he
    exact Relay.goes_pumpStep hstep direction
  | expire | own_expire =>
    obtain ⟨_, hstep, he⟩ := Option.map_eq_some_iff.mp hact
    obtain ⟨-, rfl⟩ := Prod.mk.inj he
    exact Relay.goes_expire hstep direction

theorem quiet_of_works {turn : Turn} {move : Relay.Move} (h : turn.Works move) :
    turn.sent .nothing = silence ∧ turn.received .nothing = silence := by
  cases h <;> exact ⟨rfl, rfl⟩

/-- Part of the replay comes into the site. -/
theorem Sound.passed (h : execution.Sound innermost) {destination : String}
    {replay front rest : Bytes} {site : Link}
    (hstage : execution.stage = .replaying destination replay (front ++ rest))
    (hsite : execution.site = some site) (hflowing : site.outbound.state = .flowing) :
    Turned innermost silence silence execution { execution with
      site := some { site with
        outbound := { site.outbound with buffered := site.outbound.buffered ++ front } }
      stage := .replaying destination replay rest } := by
  have hreflects : innermost = .reflect destination := by
    simpa [hstage, Stage.Follows] using h.stage
  obtain ⟨now, stage, client, place, hello, pool, metrics, log⟩ := execution
  simp only at hstage hsite
  subst hstage hsite
  refine ⟨⟨hreflects, fun he => by contradiction⟩, fun direction _ => .passes ?_ rfl,
    fun _ _ => ⟨rfl, .refl _⟩, fun _ he => by contradiction⟩
  cases direction with
  | clientToSite => exact .put hflowing
  | siteToClient => exact .still _

theorem Sound.replayed (h : execution.Sound innermost) {destination : String} {replay : Bytes}
    {site : Link} (hstage : execution.stage = .replaying destination replay [])
    (hsite : execution.site = some site) :
    Turned innermost silence silence execution { execution with
      stage := .relaying destination replay.length
        (.start execution.now execution.client site) } := by
  have hreflects : innermost = .reflect destination := by
    simpa [hstage, Stage.Follows] using h.stage
  obtain ⟨now, stage, client, place, hello, pool, metrics, log⟩ := execution
  simp only at hstage hsite
  subst hstage hsite
  refine ⟨⟨hreflects, fun he => by contradiction⟩, fun direction _ => .passes ?_ ?_,
    fun _ hq => by contradiction, fun _ he => by contradiction⟩
  · cases direction <;> exact .still _
  · cases direction <;> rfl

theorem Sound.connected (h : execution.Sound innermost) {destination : String} {replay : Bytes}
    (hstage : execution.stage = .dialing destination replay) {site : Link}
    (hfresh : site.outbound.buffered = []) :
    Turned innermost (greeting (.ok site)) silence execution
      { execution with site := some site, stage := .replaying destination replay replay } := by
  obtain ⟨now, stage, client, place, hello, pool, metrics, log⟩ := execution
  simp only at hstage
  subst hstage
  obtain rfl : place = none := h.early rfl
  refine ⟨⟨h.stage, fun he => by contradiction⟩, fun direction _ => .passes ?_ rfl,
    fun _ _ => ⟨rfl, .refl _⟩, fun _ he => by contradiction⟩
  cases direction with
  | clientToSite => exact .receiver hfresh rfl
  | siteToClient => exact .sender rfl rfl

theorem Sound.elapse (h : execution.Sound innermost) (time : Nat) :
    Turned innermost silence silence execution (execution.elapse time) := by
  obtain ⟨now, stage, client, site, hello, pool, metrics, log⟩ := execution
  cases stage with
  | relaying other replayed relay =>
    refine .still ⟨h.stage, h.early⟩ (fun direction => ?_) (fun direction => ?_) rfl rfl rfl
    · cases direction <;> rfl
    · cases direction <;> rfl
  | _ =>
    refine .still ⟨h.stage, h.early⟩ (fun direction => ?_) (fun _ => rfl) rfl rfl rfl
    cases direction <;> rfl

theorem Sound.client (h : execution.Sound innermost) (deed : Deed) :
    Turned innermost (along .clientToSite (deed.sent (execution.clientLink.actFar deed).1))
      (along .siteToClient (execution.clientLink.actFar deed).1.received) execution
      (execution.setClientLink (execution.clientLink.actFar deed).2) := by
  have hfed := execution.clientLink.fed_actFar deed
  have hin := execution.clientLink.later_actFar_inbound deed
  have hdrained := execution.clientLink.drained_actFar deed
  have hout := execution.clientLink.later_actFar_outbound deed
  obtain ⟨now, stage, client, site, hello, pool, metrics, log⟩ := execution
  cases stage with
  | relaying other replayed relay =>
    refine ⟨⟨h.stage, h.early⟩, fun direction _ => .passes ?_ ?_, fun _ hq => by contradiction,
      fun _ he => by contradiction⟩
    · cases direction with
      | clientToSite => exact .fed hfed hin
      | siteToClient => exact .drained hdrained hout
    · cases direction <;> rfl
  | _ =>
    refine ⟨⟨h.stage, h.early⟩, fun direction _ => .passes ?_ rfl, fun _ hq => ⟨hq, hdrained⟩,
      fun _ he => .inl he⟩
    cases direction with
    | clientToSite => exact .fed hfed hin
    | siteToClient => exact .drained hdrained hout

/-- A site can only act once it is there. -/
theorem Sound.site (h : execution.Sound innermost) {site : Link}
    (hsite : execution.siteLink? = some site) (deed : Deed) :
    Turned innermost (along .siteToClient (deed.sent (site.actFar deed).1))
      (along .clientToSite (site.actFar deed).1.received) execution
      (execution.setSiteLink (site.actFar deed).2) := by
  have hfed := site.fed_actFar deed
  have hin := site.later_actFar_inbound deed
  have hdrained := site.drained_actFar deed
  have hout := site.later_actFar_outbound deed
  obtain ⟨now, stage, client, place, hello, pool, metrics, log⟩ := execution
  cases stage with
  | deciding _ | pausing _ _ | alerting _ _ | dialing _ _ =>
    obtain rfl : place = none := h.early rfl
    contradiction
  | relaying other replayed relay =>
    obtain rfl : relay.site = site := Option.some.inj hsite
    refine ⟨⟨h.stage, h.early⟩, fun direction _ => .passes ?_ ?_, fun _ hq => by contradiction,
      fun _ he => by contradiction⟩
    · cases direction with
      | clientToSite => exact .drained hdrained hout
      | siteToClient => exact .fed hfed hin
    · cases direction <;> rfl
  | replaying _ _ _ | returned _ =>
    obtain rfl : place = some site := hsite
    refine ⟨⟨h.stage, fun he => by contradiction⟩, fun direction _ => .passes ?_ rfl,
      fun _ hq => ⟨hq, .refl _⟩, fun _ he => .inl he⟩
    cases direction with
    | clientToSite => exact .drained hdrained hout
    | siteToClient => exact .fed hfed hin

theorem Sound.went (h : execution.Sound innermost) {turn : Turn} (hfresh : turn.Fresh)
    {outcome : Stream.Outcome} (hwent : Went execution turn outcome execution') :
    Turned innermost (turn.sent outcome) (turn.received outcome) execution execution' := by
  cases hwent with
  | decided stage => exact h.decide stage
  | woke stage due =>
    obtain ⟨now, _, client, site, hello, pool, metrics, log⟩ := execution
    simp only at stage
    subst stage
    refine .still ⟨h.stage, h.early⟩ (fun direction => ?_) (fun _ => rfl) rfl rfl rfl
    cases direction <;> rfl
  | @wrote alert front rest stage flowing =>
    -- The bytes of an alert are none of the site's, so that direction is not looked at here.
    have halerts : innermost = .alert alert := by simpa [stage, Stage.Follows] using h.stage
    have hnot : ¬ innermost.Bears .siteToClient := by
      rintro ⟨destination, hreflects⟩
      simp [halerts] at hreflects
    obtain ⟨now, _, client, site, hello, pool, metrics, log⟩ := execution
    simp only at stage
    subst stage
    refine ⟨⟨halerts, h.early⟩, fun direction hbears => ?_, fun hbears => absurd hbears hnot,
      fun _ he => by contradiction⟩
    cases direction with
    | clientToSite => exact .passes (.still _) rfl
    | siteToClient => exact absurd hbears hnot
  | alerted stage | unalerted stage | unreached stage | unreplayed stage =>
    exact turned_shut_conclude (by rw [stage]; rfl) (by simp [hushed, stage]) _
  | connected stage site => exact h.connected stage hfresh
  | passed stage there flowing => exact h.passed stage there flowing
  | replayed stage there => exact h.replayed stage there
  | relayed stage works act =>
    obtain ⟨hsent, hreceived⟩ := quiet_of_works works
    rw [hsent, hreceived]
    exact h.relayed stage (goes_of_works works act)
  | elapsed time => exact h.elapse time
  | client deed => exact h.client deed
  | site there deed => exact h.site there deed

end Execution
end Gatehouse
