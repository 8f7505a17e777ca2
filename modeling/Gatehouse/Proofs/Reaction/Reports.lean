import Gatehouse.Proofs.Reaction.Accounts
import Gatehouse.Proofs.Reaction.Course
import Mathlib.Algebra.GroupWithZero.Nat
import Mathlib.Data.List.Forall2

namespace Gatehouse
open Gatehouse.Stream Gatehouse.Capture

namespace Execution
variable {execution execution' first last : Execution} {reaction : Reaction} {hello : Option Buffer}
  {pool : Pool} {destination : String} {replayed : Nat} {relay : Relay} {turn : Turn}
  {turns : List Turn} {outcome : Stream.Outcome} {log : List (Turn × Stream.Outcome)}
  {stats : RelayStats}

theorem stage_relayed (execution : Execution) (destination : String) (replayed : Nat) (relay : Relay) :
    (execution.relayed destination replayed relay).stage =
      if relay.returned then .returned (.ok (.reflected destination (total replayed relay.stats)))
      else .relaying destination replayed relay := by
  unfold Execution.relayed
  split <;> rfl

/-- A turn as a move of the relay that it falls into. -/
inductive Turn.Within : Turn → Relay.Move → Prop
  | pump (direction : Direction) : Within (.pump direction) (.pump direction)
  | expire : Within .expire .expire
  | own_pump (direction : Direction) : Within (.move .proceed) (.pump direction)
  | own_expire : Within (.move .proceed) .expire
  | elapse (time : Nat) : Within (.move (.elapse time)) (.elapse time)
  | party (who : Relay.Party) (deed : Deed) : Within (.move (.party who deed)) (.party who deed)

theorem Turn.Works.within {move : Relay.Move} (h : turn.Works move) : turn.Within move := by
  cases h with
  | pump direction => exact .pump direction
  | expire => exact .expire
  | own_pump direction => exact .own_pump direction
  | own_expire => exact .own_expire

/-- While a relay runs, a turn is a move of it. -/
theorem relay_turn (hstage : execution.stage = .relaying destination replayed relay)
    (hrunning : relay.returned = false) (hwent : Went execution turn outcome execution') :
    ∃ move relay', turn.Within move ∧ relay.act? move = some (outcome, relay') ∧
      execution'.stage =
        if relay'.returned then .returned (.ok (.reflected destination (total replayed relay'.stats)))
        else .relaying destination replayed relay' := by
  obtain ⟨now, stage, client, site, hello, pool, metrics, log⟩ := execution
  simp only at hstage
  subst hstage
  cases hwent with
  | relayed stage works act =>
    obtain ⟨rfl, rfl, rfl⟩ := Stage.relaying.inj stage
    exact ⟨_, _, works.within, act, stage_relayed _ _ _ _⟩
  | elapsed time =>
    refine ⟨_, { relay with now := relay.now + time }, .elapse time, rfl, ?_⟩
    rw [if_neg (by simp [hrunning])]
    rfl
  | client deed =>
    refine ⟨_, (relay.actParty .client deed).2, .party .client deed, rfl, ?_⟩
    rw [if_neg (by simp [Relay.actParty, hrunning])]
    rfl
  | site there deed =>
    obtain rfl := Option.some.inj there
    refine ⟨_, (relay.actParty .site deed).2, .party .site deed, rfl, ?_⟩
    rw [if_neg (by simp [Relay.actParty, hrunning])]
    rfl
  | _ => contradiction

/-- The turns of a reaction up to its relay, those that are moves of the relay until that returns, and
those after it. -/
structure RelayRun (first : Execution) (turns : List Turn) (destination : String) (replayed : Nat) where
  before : List Turn
  during : List Turn
  later : List Turn
  entered : Execution
  site : Link
  moves : List Relay.Move
  passages : List Relay.Passage
  final : Relay
  turns_eq : turns = before ++ (during ++ later)
  play_before : ∃ log, first.play? before = some (log, entered)
  stage_eq : entered.stage =
    .relaying destination replayed (.start entered.now entered.client site)
  within : List.Forall₂ Turn.Within during moves
  run_eq : (Relay.start entered.now entered.client site).run? moves = some (passages, final)
  returned : final.returned = true

theorem moves_of_relay (hstage : execution.stage = .relaying destination replayed relay)
    (hrunning : relay.returned = false) (hplay : execution.play? turns = some (log, last))
    {other : String} (hresult : last.result? = some (.ok (.reflected other stats))) :
    ∃ during later moves passages final, turns = during ++ later ∧
      List.Forall₂ Turn.Within during moves ∧ relay.run? moves = some (passages, final) ∧
      final.returned = true ∧ other = destination ∧ stats = total replayed final.stats := by
  induction turns generalizing execution relay log with
  | nil =>
    obtain ⟨rfl, rfl⟩ := Prod.mk.inj (Option.some.inj hplay)
    simp [result?, hstage] at hresult
  | cons turn rest ih =>
    obtain ⟨outcome, next, log', hturn, hrest, rfl⟩ := play?_cons.mp hplay
    obtain ⟨move, relay', hwithin, hact, hnext⟩ := relay_turn hstage hrunning (went hturn)
    cases hreturned : relay'.returned with
    | true =>
      rw [hreturned, if_pos rfl] at hnext
      have hlast := result?_play (result?_eq_some_iff.mpr hnext) hrest
      rw [hlast] at hresult
      simp only [Option.some.injEq, Except.ok.injEq, Outcome.reflected.injEq] at hresult
      obtain ⟨rfl, rfl⟩ := hresult
      have hrun : relay.run? [move] = some ([⟨move, relay, relay'⟩], relay') :=
        Relay.run?_cons.mpr ⟨outcome, relay', [], hact, rfl, rfl⟩
      exact ⟨[turn], rest, [move], _, relay', rfl, .cons hwithin .nil, hrun, hreturned, rfl, rfl⟩
    | false =>
      rw [hreturned, if_neg (by simp)] at hnext
      obtain ⟨during, later, moves, passages, final, rfl, hmoves, hrun, hfinal, hsame, hstats⟩ :=
        ih hnext hreturned hrest
      have hruns : relay.run? (move :: moves) = some (⟨move, relay, relay'⟩ :: passages, final) :=
        Relay.run?_cons.mpr ⟨outcome, relay', passages, hact, hrun, rfl⟩
      exact ⟨turn :: during, later, move :: moves, _, final, rfl, .cons hwithin hmoves, hruns, hfinal,
        hsame, hstats⟩

/-- A turn that hands the client to a relay starts the relay after the whole replay. -/
theorem OnCourse.enters (h : execution.OnCourse reaction hello pool)
    (hwent : Went execution turn outcome execution') (halone : execution.stage.handedOver = false)
    (hover : execution'.stage.handedOver = true) :
    ∃ destination site, execution'.stage =
      .relaying destination (captured hello).length (.start execution'.now execution'.client site) := by
  cases hwent with
  | @replayed destination replay site stage =>
    have hdone := h.done
    rw [stage] at hdone
    obtain ⟨-, rfl, -, -⟩ := hdone
    exact ⟨destination, site, rfl⟩
  | @decided next stage => cases next <;> contradiction
  | relayed stage works act =>
    rw [stage] at halone
    contradiction
  | elapsed time =>
    rw [handedOver_elapse, halone] at hover
    contradiction
  | client deed =>
    rw [handedOver_setClientLink, halone] at hover
    contradiction
  | site there deed =>
    rw [handedOver_setSiteLink, halone] at hover
    contradiction
  | _ => contradiction

theorem OnCourse.relayRun (h : execution.OnCourse reaction hello pool)
    (halone : execution.stage.handedOver = false) (hplay : execution.play? turns = some (log, last))
    (hresult : last.result? = some (.ok (.reflected destination stats))) :
    ∃ run : execution.RelayRun turns destination (captured hello).length,
      stats = total (captured hello).length run.final.stats := by
  induction turns generalizing execution log with
  | nil =>
    obtain ⟨rfl, rfl⟩ := Prod.mk.inj (Option.some.inj hplay)
    rw [result?_eq_some_iff.mp hresult] at halone
    contradiction
  | cons turn rest ih =>
    obtain ⟨outcome, next, log', hturn, hrest, rfl⟩ := play?_cons.mp hplay
    have hwent := Execution.went hturn
    cases hover : next.stage.handedOver with
    | true =>
      obtain ⟨entry, site, hstage⟩ := h.enters hwent halone hover
      obtain ⟨during, later, moves, passages, final, rfl, hmoves, hrun, hfinal, rfl, hstats⟩ :=
        moves_of_relay hstage rfl hrest hresult
      have hfirst : execution.play? [turn] = some ([(turn, outcome)], next) :=
        play?_cons.mpr ⟨outcome, next, [], hturn, rfl, rfl⟩
      exact ⟨⟨[turn], during, later, next, site, moves, passages, final, rfl, ⟨_, hfirst⟩, hstage, hmoves,
        hrun, hfinal⟩, hstats⟩
    | false =>
      obtain ⟨run, hstats⟩ := ih (h.went hwent) hover hrest
      obtain ⟨log, hbefore⟩ := run.play_before
      have hfirst : execution.play? (turn :: run.before) = some ((turn, outcome) :: log, run.entered) :=
        play?_cons.mpr ⟨outcome, next, log, hturn, hbefore, rfl⟩
      exact ⟨{ run with
        before := turn :: run.before
        turns_eq := congrArg (turn :: ·) run.turns_eq
        play_before := ⟨_, hfirst⟩ }, hstats⟩

/-- What a reaction reports that went through a relay. -/
def reported? (execution : Execution) : Option RelayStats :=
  match execution.stage with
  | .returned (.ok (.reflected _ stats)) => some stats
  | _ => none

theorem reported?_of_alone (h : execution.stage.handedOver = false) : execution.reported? = none := by
  unfold reported?
  split
  · rename_i hstage
    rw [hstage] at h
    contradiction
  · rfl

/-- The counters change with a report only, and by what is reported. -/
theorem counts_went (hwent : Went execution turn outcome execution') :
    execution'.metrics = execution.metrics ∧ execution'.reported? = execution.reported? ∨
      ∃ stats, execution.reported? = none ∧ execution'.reported? = some stats ∧
        execution'.metrics = execution.metrics.countRelay stats.clientToSite stats.siteToClient := by
  have hfirst {stage : Stage} (hstage : execution.stage = stage) (halone : stage.handedOver = false) :
      execution.reported? = none := reported?_of_alone (hstage ▸ halone)
  cases hwent with
  | @decided next stage => cases next <;> exact .inl ⟨rfl, (hfirst stage rfl).symm⟩
  | woke stage | wrote stage | alerted stage | unalerted stage | connected stage | unreached stage
  | passed stage | replayed stage | unreplayed stage => exact .inl ⟨rfl, (hfirst stage rfl).symm⟩
  | relayed stage works act =>
    have hnone : execution.reported? = none := by simp [reported?, stage]
    unfold Execution.relayed
    split
    · exact .inr ⟨_, hnone, rfl, rfl⟩
    · exact .inl ⟨rfl, hnone.symm⟩
  | elapsed time =>
    obtain ⟨now, stage, client, site, hello, pool, metrics, log⟩ := execution
    cases stage <;> exact .inl ⟨rfl, rfl⟩
  | client deed =>
    obtain ⟨now, stage, client, site, hello, pool, metrics, log⟩ := execution
    cases stage <;> exact .inl ⟨rfl, rfl⟩
  | site there deed =>
    obtain ⟨now, stage, client, site, hello, pool, metrics, log⟩ := execution
    cases stage <;> exact .inl ⟨rfl, rfl⟩

end Execution

/-- Reactions with the buffers and the counters that they share. -/
structure Reactions where
  pool : Pool
  metrics : Metrics
  executions : List Execution

namespace Reactions

/-- Another reaction begins, or one of them has a turn. -/
inductive Move
  | begin (reaction : Reaction) (client : Link) (hello : Option Buffer)
  | turn (index : Nat) (turn : Execution.Turn)

/-- No reaction has begun yet. -/
def start (pool : Pool) : Reactions := ⟨pool, .empty, []⟩

def act? (reactions : Reactions) : Move → Option Reactions
  | .begin reaction client hello =>
    some { reactions with
      executions := reactions.executions ++
        [.start reaction client hello reactions.pool reactions.metrics] }
  | .turn index turn => do
    let execution ← reactions.executions[index]?
    let execution := { execution with pool := reactions.pool, metrics := reactions.metrics }
    let (_, next) ← execution.turn? turn
    return ⟨next.pool, next.metrics, reactions.executions.set index next⟩

def run? (reactions : Reactions) : List Move → Option Reactions
  | [] => some reactions
  | move :: rest => do
    let next ← reactions.act? move
    next.run? rest

/-- What the reactions have reported that went through a relay. -/
def reports (reactions : Reactions) : List RelayStats := reactions.executions.filterMap (·.reported?)

/-- The counters are what was reported: untouched before the first report, and their sum after it. -/
def Counted (reactions : Reactions) : Prop :=
  ∀ direction, reactions.metrics.value? (.relayBytes direction) =
    if reactions.reports = [] then none
    else some ((reactions.reports.map (·.along direction)).sum % Metrics.counterLimit)

variable {reactions reactions' : Reactions}

theorem value?_countRelay (metrics : Metrics) (stats : RelayStats) (direction : Direction) :
    (metrics.countRelay stats.clientToSite stats.siteToClient).value? (.relayBytes direction) =
      some (((metrics.value? (.relayBytes direction)).getD 0 + stats.along direction) %
        Metrics.counterLimit) := by
  cases direction <;> simp [Metrics.countRelay, Metrics.value?_add, RelayStats.along]

/-- One more report adds to the counters what it adds to the sum. -/
theorem value?_report {metrics : Metrics} {direction : Direction} {front back : List RelayStats}
    (h : metrics.value? (.relayBytes direction) = if front ++ back = [] then none
      else some (((front ++ back).map (·.along direction)).sum % Metrics.counterLimit))
    (stats : RelayStats) :
    (metrics.countRelay stats.clientToSite stats.siteToClient).value? (.relayBytes direction) =
      some (((front ++ stats :: back).map (·.along direction)).sum % Metrics.counterLimit) := by
  have hsum : ((front ++ stats :: back).map (·.along direction)).sum =
      ((front ++ back).map (·.along direction)).sum + stats.along direction := by
    simp only [List.map_append, List.map_cons, List.sum_append, List.sum_cons]
    omega
  rw [value?_countRelay, h, hsum]
  split
  · rename_i hnone
    simp [hnone]
  · simp [Nat.mod_add_mod]

theorem executions_set {executions : List Execution} {index : Nat} {execution : Execution}
    (h : executions[index]? = some execution) (next : Execution) :
    ∃ front back, executions = front ++ execution :: back ∧
      executions.set index next = front ++ next :: back := by
  obtain ⟨hindex, rfl⟩ := List.getElem?_eq_some_iff.mp h
  refine ⟨executions.take index, executions.drop (index + 1), ?_, ?_⟩
  · rw [List.getElem_cons_drop, List.take_append_drop]
  · rw [List.set_eq_take_append_cons_drop, if_pos hindex]

theorem Counted.act {move : Move} (h : reactions.Counted) (hact : reactions.act? move = some reactions') :
    reactions'.Counted := by
  intro direction
  cases move with
  | begin reaction client hello =>
    obtain rfl := Option.some.inj hact
    have hsame : (reactions.executions ++ [Execution.start reaction client hello reactions.pool
        reactions.metrics]).filterMap (·.reported?) = reactions.reports := by
      rw [List.filterMap_append]
      exact List.append_nil _
    rw [reports, hsame]
    exact h direction
  | turn index turn =>
    simp only [act?, Option.bind_eq_bind, Option.bind_eq_some_iff, Prod.exists, Option.pure_def,
      Option.some.injEq] at hact
    obtain ⟨execution, hget, outcome, next, hturn, rfl⟩ := hact
    obtain ⟨front, back, hbefore, hafter⟩ := executions_set hget next
    have hcounted := h direction
    rw [reports, hbefore, List.filterMap_append] at hcounted
    rw [reports, hafter, List.filterMap_append]
    rcases Execution.counts_went (Execution.went hturn) with
      ⟨hmetrics, hsame⟩ | ⟨stats, hnone, hsome, hmetrics⟩
    · have hreport : next.reported? = execution.reported? := hsame
      simp only [List.filterMap_cons, hreport, hmetrics] at hcounted ⊢
      exact hcounted
    · have hunreported : execution.reported? = none := hnone
      rw [List.filterMap_cons_none hunreported] at hcounted
      rw [List.filterMap_cons_some hsome, if_neg (by simp), hmetrics]
      exact value?_report hcounted stats

theorem Counted.run {moves : List Move} (h : reactions.Counted)
    (hrun : reactions.run? moves = some reactions') : reactions'.Counted := by
  induction moves generalizing reactions with
  | nil =>
    obtain rfl := Option.some.inj hrun
    exact h
  | cons move rest ih =>
    simp only [run?, Option.bind_eq_bind, Option.bind_eq_some_iff] at hrun
    obtain ⟨next, hact, hrest⟩ := hrun
    exact ih (h.act hact) hrest

theorem counted_start (pool : Pool) : (start pool).Counted := fun _ => rfl

end Reactions

/-- A relay counts in either direction the chunks that are written to their end, which is less than a
chunk behind what the writer has taken, and not at all once the reader has ended the direction. A reaction
reports what its relay has counted, with the replay added on the way to the site. And what is counted over
all reactions is the sum of what they have reported, whatever becomes of the others. -/
theorem relay_is_accounted_for :
    (∀ now client site moves passages last,
      (Relay.start now client site).run? moves = some (passages, last) →
      ∀ direction,
        (∃ rest, Written (Relay.chunksIn passages direction) (Relay.putIn passages direction)
          (last.stats.along direction) rest) ∧
        last.stats.along direction ≤ (Relay.putIn passages direction).length ∧
        (Relay.putIn passages direction).length < last.stats.along direction + 16384 ∧
        ((last.pump direction).phase = .ended .endOfStream ∨
            (last.pump direction).phase = .ended .readFailed →
          last.stats.along direction = (Relay.putIn passages direction).length)) ∧
    (∀ reaction client hello pool metrics turns log last destination stats,
      (Execution.start reaction client hello pool metrics).play? turns = some (log, last) →
      last.result? = some (.ok (.reflected destination stats)) →
      ∃ run : (Execution.start reaction client hello pool metrics).RelayRun turns destination
          (captured hello).length,
        stats = ⟨run.final.stats.clientToSite + (captured hello).length,
          run.final.stats.siteToClient⟩) ∧
    (∀ pool moves last, (Reactions.start pool).run? moves = some last →
      ∀ direction, last.metrics.value? (.relayBytes direction) =
        if last.reports = [] then none
        else some ((last.reports.map (·.along direction)).sum % Metrics.counterLimit)) := by
  refine ⟨fun now client site moves passages last hrun direction => Relay.counts_of_run hrun direction, ?_,
    ?_⟩
  · intro reaction client hello pool metrics turns log last destination stats hplay hresult
    exact (Execution.onCourse_start reaction client hello pool metrics).relayRun rfl hplay hresult
  · intro pool moves last hrun
    exact (Reactions.counted_start pool).run hrun

/-- A client sends two bytes to a site, and leaves as the site does. -/
def errand : List Execution.Turn := [
  .move .proceed, .move (.answer (.ok (.empty 8))), .move .proceed,
  .move (.party .client (.write [1, 2])), .pump .clientToSite, .pump .clientToSite,
  .move (.party .client .drop), .pump .clientToSite, .move (.party .site .drop), .pump .siteToClient]

theorem errand_is_accounted_for :
    (∃ passages last, (Relay.start 0 (.empty 8) (.empty 8)).run? [.party .client (.write [1, 2]),
        .pump .clientToSite, .pump .clientToSite, .party .client .drop, .pump .clientToSite] =
          some (passages, last) ∧
      last.stats.along .clientToSite = (Relay.putIn passages .clientToSite).length) ∧
    (∃ run : (Execution.start (.reflect "site") (.empty 8) none (.empty 1) .empty).RelayRun errand "site" 0,
      (⟨2, 0⟩ : RelayStats) = ⟨run.final.stats.clientToSite, run.final.stats.siteToClient⟩) ∧
    ∃ last, (Reactions.start (.empty 1)).run?
        (.begin (.reflect "site") (.empty 8) none :: errand.map (.turn 0)) = some last ∧
      last.metrics.value? (.relayBytes .clientToSite) = some 2 := by
  obtain ⟨hcounts, hreports, hcounters⟩ := relay_is_accounted_for
  refine ⟨?_, ?_, ?_⟩
  · obtain ⟨passages, last, hrun, hended⟩ :
        ∃ passages last, (Relay.start 0 (.empty 8) (.empty 8)).run? [.party .client (.write [1, 2]),
            .pump .clientToSite, .pump .clientToSite, .party .client .drop, .pump .clientToSite] =
              some (passages, last) ∧
          (last.pump .clientToSite).phase = .ended .endOfStream := ⟨_, _, rfl, rfl⟩
    obtain ⟨-, -, -, hall⟩ := hcounts 0 (.empty 8) (.empty 8) _ passages last hrun .clientToSite
    exact ⟨passages, last, hrun, hall (.inl hended)⟩
  · obtain ⟨log, last, hplay, hresult⟩ :
        ∃ log last, (Execution.start (.reflect "site") (.empty 8) none (.empty 1) .empty).play? errand =
            some (log, last) ∧
          last.result? = some (.ok (.reflected "site" ⟨2, 0⟩)) := ⟨_, _, rfl, rfl⟩
    exact hreports (.reflect "site") (.empty 8) none (.empty 1) .empty errand log last "site" ⟨2, 0⟩ hplay
      hresult
  · obtain ⟨last, hrun, hreported⟩ :
        ∃ last, (Reactions.start (.empty 1)).run?
            (.begin (.reflect "site") (.empty 8) none :: errand.map (.turn 0)) = some last ∧
          last.reports = [⟨2, 0⟩] := ⟨_, rfl, rfl⟩
    refine ⟨last, hrun, ?_⟩
    have hvalue := hcounters (.empty 1) _ last hrun .clientToSite
    rw [hreported] at hvalue
    exact hvalue

end Gatehouse
