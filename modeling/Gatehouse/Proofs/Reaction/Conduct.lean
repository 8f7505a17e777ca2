import Gatehouse.Proofs.Reaction.Serving

namespace Gatehouse
open Gatehouse.Stream Gatehouse.Capture

namespace Execution

def Effect.target? : Effect → Option String
  | .dial destination => some destination
  | _ => none

variable {execution execution' : Execution} {reaction : Reaction} {hello : Option Buffer} {pool : Pool}

theorem dialed_eq (execution : Execution) :
    execution.dialed = execution.effects.filterMap Effect.target? := by
  rw [dialed, effects, List.filterMap_map]
  congr 1
  funext entry
  obtain ⟨time, effect⟩ := entry
  cases effect <;> rfl

theorem bytes_writes (writes : List Bytes) :
    (writes.map Effect.write).flatMap Effect.bytes = writes.flatten := by
  rw [List.flatMap_map, ← List.flatMap_id]
  rfl

theorem target_writes (writes : List Bytes) :
    (writes.map Effect.write).filterMap Effect.target? = [] := by
  rw [List.filterMap_map]
  exact List.filterMap_eq_nil_iff.mpr fun _ _ => rfl

theorem bytes_writes_shut (writes : List Bytes) :
    (Effect.release :: writes.map .write ++ [Effect.shut]).flatMap Effect.bytes = writes.flatten := by
  rw [List.flatMap_append, ← bytes_writes writes]
  exact List.append_nil _

theorem target_writes_shut (writes : List Bytes) :
    (Effect.release :: writes.map .write ++ [Effect.shut]).filterMap Effect.target? = [] := by
  rw [List.filterMap_append]
  exact congrArg (· ++ []) (target_writes writes)

/-- All that a reaction can have done by any moment, with the result it may have given. -/
inductive Acts (innermost : Reaction) : List Effect → Option (Except Fault Outcome) → Prop
  | idle : Acts innermost [] none
  | alerting {alert : Alert} {writes : List Bytes} {rest : Bytes} (alerts : innermost = .alert alert)
      (record : writes.flatten ++ rest = alert.record) :
      Acts innermost (.release :: writes.map .write) none
  | reflecting {destination : String} (reflects : innermost = .reflect destination) :
      Acts innermost [.release, .dial destination] none
  | ended {effects : List Effect} {result : Except Fault Outcome}
      (ended : Ended innermost effects result) : Acts innermost effects (some result)

theorem OnCourse.acts (h : execution.OnCourse reaction hello pool) :
    Acts reaction.innermost execution.effects execution.result? := by
  have hdone := h.done
  rw [result?]
  cases hstage : execution.stage with
  | deciding next =>
    rw [hstage] at hdone
    rw [hdone.2]
    exact .idle
  | pausing wake next =>
    rw [hstage] at hdone
    rw [hdone.2]
    exact .idle
  | alerting alert rest =>
    rw [hstage] at hdone
    obtain ⟨halerts, writes, hrecord, heffects⟩ := hdone
    rw [heffects]
    exact .alerting halerts hrecord
  | dialing destination replay =>
    rw [hstage] at hdone
    rw [hdone.2.2]
    exact .reflecting hdone.1
  | replaying destination replay rest =>
    rw [hstage] at hdone
    rw [hdone.2.2.2]
    exact .reflecting hdone.1
  | relaying destination replayed relay =>
    rw [hstage] at hdone
    rw [hdone.2.2]
    exact .reflecting hdone.1
  | returned result =>
    rw [hstage] at hdone
    exact .ended hdone

theorem OnCourse.alert {alert : Alert} (h : execution.OnCourse reaction hello pool)
    (halert : reaction.innermost = .alert alert) :
    execution.dialed = [] ∧ execution.written <+: alert.record ∧
      ∀ result, execution.result? = some result →
        result = .ok (.alerted alert) ∧ execution.written = alert.record ∨
        result = .error (.broken .brokenPipe) ∧ execution.written ≠ alert.record := by
  have hacts := h.acts
  rw [dialed_eq, written]
  rw [halert] at hacts
  generalize execution.effects = effects, execution.result? = outcome at hacts
  cases hacts with
  | idle => exact ⟨rfl, List.nil_prefix, fun _ he => by contradiction⟩
  | @alerting _ writes rest alerts record =>
    obtain rfl := Reaction.alert.inj alerts
    refine ⟨target_writes writes, ⟨rest, ?_⟩, fun _ he => by contradiction⟩
    rw [← record, ← bytes_writes writes]
    rfl
  | reflecting reflects => contradiction
  | ended ended =>
    simp only [Option.some.injEq, forall_eq']
    cases ended with
    | closed quiet => simp at quiet
    | @alerted _ writes alerts all =>
      obtain rfl := Reaction.alert.inj alerts
      rw [target_writes_shut, bytes_writes_shut, all]
      exact ⟨rfl, List.prefix_rfl, .inl ⟨rfl, rfl⟩⟩
    | @unalerted _ writes rest alerts some_left rest_ne =>
      obtain rfl := Reaction.alert.inj alerts
      rw [target_writes_shut, bytes_writes_shut]
      refine ⟨rfl, ⟨rest, some_left⟩, .inr ⟨rfl, fun hall => ?_⟩⟩
      rw [← some_left] at hall
      exact rest_ne (List.self_eq_append_right.mp hall)
    | unreached reflects => contradiction
    | unreplayed reflects => contradiction
    | reflected reflects => contradiction

theorem OnCourse.quiet (h : execution.OnCourse reaction hello pool)
    (hquiet : reaction.innermost = .close ∨ reaction.innermost = .none) :
    execution.dialed = [] ∧ execution.written = [] ∧
      ∀ result, execution.result? = some result → result = .ok .closed := by
  have hacts := h.acts
  have halert (alert : Alert) : reaction.innermost ≠ .alert alert := by
    rcases hquiet with hq | hq <;> simp [hq]
  have hreflect (destination : String) : reaction.innermost ≠ .reflect destination := by
    rcases hquiet with hq | hq <;> simp [hq]
  rw [dialed_eq, written]
  generalize execution.effects = effects, execution.result? = outcome at hacts
  cases hacts with
  | idle => exact ⟨rfl, rfl, fun _ he => by contradiction⟩
  | alerting alerts _ => exact absurd alerts (halert _)
  | reflecting reflects => exact absurd reflects (hreflect _)
  | ended ended =>
    simp only [Option.some.injEq, forall_eq']
    cases ended with
    | closed _ => exact ⟨rfl, rfl, rfl⟩
    | alerted alerts _ => exact absurd alerts (halert _)
    | unalerted alerts _ _ => exact absurd alerts (halert _)
    | unreached reflects => exact absurd reflects (hreflect _)
    | unreplayed reflects => exact absurd reflects (hreflect _)
    | reflected reflects => exact absurd reflects (hreflect _)

theorem OnCourse.reflect {destination : String} (h : execution.OnCourse reaction hello pool)
    (hreflect : reaction.innermost = .reflect destination) :
    execution.written = [] ∧ (execution.effects ≠ [] → execution.dialed = [destination]) ∧
      ∀ result, execution.result? = some result →
        (∃ stats, result = .ok (.reflected destination stats)) ∨
        (∃ cause, result = .error (.unreachable destination cause)) ∨
        result = .error (.broken .brokenPipe) := by
  have hacts := h.acts
  rw [dialed_eq, written]
  rw [hreflect] at hacts
  generalize execution.effects = effects, execution.result? = outcome at hacts
  cases hacts with
  | idle => exact ⟨rfl, fun hno => absurd rfl hno, fun _ he => by contradiction⟩
  | alerting alerts _ => contradiction
  | reflecting reflects =>
    obtain rfl := Reaction.reflect.inj reflects
    exact ⟨rfl, fun _ => rfl, fun _ he => by contradiction⟩
  | ended ended =>
    simp only [Option.some.injEq, forall_eq']
    cases ended with
    | closed quiet => simp at quiet
    | alerted alerts _ => contradiction
    | unalerted alerts _ _ => contradiction
    | @unreached _ cause reflects =>
      obtain rfl := Reaction.reflect.inj reflects
      exact ⟨rfl, fun _ => rfl, .inr (.inl ⟨cause, rfl⟩)⟩
    | unreplayed reflects =>
      obtain rfl := Reaction.reflect.inj reflects
      exact ⟨rfl, fun _ => rfl, .inr (.inr rfl)⟩
    | @reflected _ stats reflects =>
      obtain rfl := Reaction.reflect.inj reflects
      exact ⟨rfl, fun _ => rfl, .inl ⟨stats, rfl⟩⟩

/-- Nothing is done, or the capture buffer is given back before anything else. -/
theorem OnCourse.released (h : execution.OnCourse reaction hello pool) :
    execution.effects = [] ∧ execution.hello = hello ∧ execution.pool = pool ∨
      ∃ acts, execution.effects = .release :: acts ∧ Effect.release ∉ acts ∧
        execution.hello = none ∧ execution.pool = pool.releaseAny hello := by
  rcases h.lending with hheld | ⟨hacted, hhello, hpool⟩
  · exact .inl hheld
  · have hacts := h.acts
    have hfirst : ∃ acts, execution.effects = .release :: acts ∧ Effect.release ∉ acts := by
      generalize execution.effects = effects, execution.result? = outcome at hacts hacted
      cases hacts with
      | idle => contradiction
      | alerting _ _ => exact ⟨_, rfl, by simp⟩
      | reflecting _ => exact ⟨_, rfl, by simp⟩
      | ended ended =>
        cases ended with
        | closed _ => exact ⟨_, rfl, by simp⟩
        | alerted _ _ => exact ⟨_, rfl, by simp⟩
        | unalerted _ _ _ => exact ⟨_, rfl, by simp⟩
        | unreached _ => exact ⟨_, rfl, by simp⟩
        | unreplayed _ => exact ⟨_, rfl, by simp⟩
        | reflected _ => exact ⟨_, rfl, by simp⟩
    obtain ⟨acts, heffects, honce⟩ := hfirst
    exact .inr ⟨acts, heffects, honce, hhello, hpool⟩

theorem OnCourse.shut_last (h : execution.OnCourse reaction hello pool) {result : Except Fault Outcome}
    (hresult : execution.result? = some result) (halone : execution.stage.handedOver = false) :
    ∃ acts, execution.effects = acts ++ [.shut] ∧ Effect.shut ∉ acts := by
  have hacts := h.acts
  rw [hresult] at hacts
  rw [result?_eq_some_iff] at hresult
  rw [hresult] at halone
  generalize execution.effects = effects at hacts
  cases hacts with
  | ended ended =>
    cases ended with
    | closed _ => exact ⟨[.release], rfl, by simp⟩
    | @alerted _ writes _ _ => exact ⟨.release :: writes.map .write, rfl, by simp⟩
    | @unalerted _ writes _ _ _ _ => exact ⟨.release :: writes.map .write, rfl, by simp⟩
    | @unreached destination _ _ => exact ⟨[.release, .dial destination], rfl, by simp⟩
    | @unreplayed destination _ => exact ⟨[.release, .dial destination], rfl, by simp⟩
    | reflected _ => contradiction

theorem OnCourse.unshut (h : execution.OnCourse reaction hello pool) (hrunning : execution.result? = none) :
    Effect.shut ∉ execution.effects := by
  have hacts := h.acts
  rw [hrunning] at hacts
  generalize execution.effects = effects at hacts
  cases hacts with
  | idle => simp
  | alerting _ _ => simp
  | reflecting _ => simp

/-- A dial that fails is reported. -/
theorem OnCourse.unreached {turns : List Turn} {log : List (Turn × Stream.Outcome)}
    (h : execution.OnCourse reaction hello pool) (hplay : execution.play? turns = some (log, execution'))
    {cause : String} (hfailed : Turn.move (.answer (.error cause)) ∈ turns) :
    ∃ destination, reaction.innermost = .reflect destination ∧
      execution'.result? = some (.error (.unreachable destination cause)) := by
  induction turns generalizing execution log with
  | nil => simp at hfailed
  | cons turn rest ih =>
    obtain ⟨outcome, next, later, hturn, hrest, rfl⟩ := play?_cons.mp hplay
    have hwent := Execution.went hturn
    rcases List.mem_cons.mp hfailed with rfl | hlater
    · cases hwent with
      | @unreached destination replay stage _ =>
        have hdone := h.done
        rw [stage] at hdone
        exact ⟨destination, hdone.1, result?_play rfl hrest⟩
      | relayed stage works act => cases works
    · exact ih (h.went hwent) hrest hlater

/-- There is a site while the replay is written to it. -/
def Supplied (execution : Execution) : Prop :=
  ∀ destination replay rest, execution.stage = .replaying destination replay rest →
    execution.site ≠ none

theorem Supplied.went {turn : Turn} {outcome : Stream.Outcome} (h : execution.Supplied)
    (hwent : Went execution turn outcome execution') : execution'.Supplied := by
  intro destination replay rest hstage
  cases hwent with
  | @decided next stage => cases next <;> contradiction
  | connected stage site => simp
  | passed stage => simp
  | @relayed other replayed relay relay' turn move stage works act =>
    have hover := execution.handedOver_relayed other replayed relay'
    rw [hstage] at hover
    contradiction
  | elapsed time =>
    obtain ⟨now, stage, client, site, hello, pool, metrics, log⟩ := execution
    cases stage with
    | replaying _ _ _ => exact h _ _ _ rfl
    | _ => contradiction
  | client deed =>
    obtain ⟨now, stage, client, site, hello, pool, metrics, log⟩ := execution
    cases stage with
    | replaying _ _ _ => exact h _ _ _ rfl
    | _ => contradiction
  | @site place there deed =>
    obtain ⟨now, stage, client, site, hello, pool, metrics, log⟩ := execution
    cases stage with
    | replaying _ _ _ =>
      obtain rfl : site = some place := there
      simp [setSiteLink]
    | _ => contradiction
  | _ => contradiction

theorem Supplied.play {turns : List Turn} {log : List (Turn × Stream.Outcome)} (h : execution.Supplied)
    (hplay : execution.play? turns = some (log, execution')) : execution'.Supplied :=
  preserved_play Supplied.went h hplay

/-- What an unfinished reaction has to wait for. -/
inductive Awaits (execution : Execution) : Prop
  | clock {wake : Nat} {next : Reaction} (stage : execution.stage = .pausing wake next)
      (early : execution.now < wake)
  | client {alert : Alert} {rest : Bytes} (stage : execution.stage = .alerting alert rest)
      (no_room : execution.client.outbound.Full)
  | answer {destination : String} {replay : Bytes} (stage : execution.stage = .dialing destination replay)
  | site {destination : String} {replay rest : Bytes} {site : Link}
      (stage : execution.stage = .replaying destination replay rest) (there : execution.site = some site)
      (no_room : site.outbound.Full)
  | relay {destination : String} {replayed : Nat} {relay : Relay}
      (stage : execution.stage = .relaying destination replayed relay) (waits : relay.step? = none)

theorem Supplied.awaits (h : execution.Supplied) (hrunning : execution.result? = none)
    (hstep : execution.step? = none) : execution.Awaits := by
  unfold step? at hstep
  cases hstage : execution.stage with
  | deciding next => simp [hstage] at hstep
  | pausing wake next =>
    simp only [hstage, ite_eq_right_iff, reduceCtorEq, imp_false] at hstep
    exact .clock hstage (Nat.lt_of_not_le hstep)
  | alerting alert rest =>
    simp only [hstage, sendAlert?] at hstep
    split at hstep
    · contradiction
    · have hwaits := execution.client.outbound.write_waits_iff rest
      simp only [Link.write] at hstep
      cases hwrite : execution.client.outbound.write rest with
      | mk result pipe =>
        rw [hwrite] at hwaits hstep
        cases result with
        | waiting => exact .client hstage (hwaits.mp rfl)
        | done n => contradiction
        | failed fault => contradiction
  | dialing destination replay => exact .answer hstage
  | replaying destination replay rest =>
    obtain ⟨site, hsite⟩ := Option.ne_none_iff_exists'.mp (h _ _ _ hstage)
    simp only [hstage, hsite, replay?] at hstep
    split at hstep
    · contradiction
    · have hwaits := site.outbound.write_waits_iff rest
      simp only [Link.write] at hstep
      cases hwrite : site.outbound.write rest with
      | mk result pipe =>
        rw [hwrite] at hwaits hstep
        cases result with
        | waiting => exact .site hstage hsite (hwaits.mp rfl)
        | done n => contradiction
        | failed fault => contradiction
  | relaying destination replayed relay =>
    simp only [hstage, Option.map_eq_none_iff] at hstep
    exact .relay hstage hstep
  | returned result => simp [result?, hstage] at hrunning

/-- The turns in which all delays are waited for. -/
def patience : Reaction → List Turn
  | .delayed delay next =>
    [.move .proceed, .move (.elapse delay), .move .proceed] ++ patience next
  | _ => []

theorem goes_on {turn : Turn} {outcome : Stream.Outcome} {turns : List Turn}
    (hturn : execution.turn? turn = some (outcome, execution'))
    {last : Execution} (hrest : ∃ log, execution'.play? turns = some (log, last)) :
    ∃ log, execution.play? (turn :: turns) = some (log, last) := by
  obtain ⟨log, hplay⟩ := hrest
  exact ⟨(turn, outcome) :: log, play?_cons.mpr ⟨outcome, execution', log, hturn, hplay, rfl⟩⟩

/-- When all delays are over the innermost layer is next, and nothing else has happened. -/
theorem play?_patience (execution : Execution) (next : Reaction) :
    ∃ log, ({ execution with stage := .deciding next } : Execution).play? (patience next) =
      some (log, { execution with
        now := execution.now + next.totalDelay
        stage := .deciding next.innermost }) := by
  induction next generalizing execution with
  | delayed delay next ih =>
    obtain ⟨log, hlater⟩ := ih { execution with now := execution.now + delay }
    have hwoken : ({ execution with
        now := execution.now + delay
        stage := .pausing (execution.now + delay) next } : Execution).turn? (.move .proceed) =
          some (.nothing, { execution with
            now := execution.now + delay
            stage := .deciding next }) := by
      simp only [turn?, act?, step?, Nat.le_refl, if_true, Option.map_some]
    rw [Nat.add_assoc] at hlater
    exact goes_on rfl (goes_on rfl (goes_on hwoken ⟨log, hlater⟩))
  | none => exact ⟨[], rfl⟩
  | alert alert => exact ⟨[], rfl⟩
  | close => exact ⟨[], rfl⟩
  | reflect destination => exact ⟨[], rfl⟩

/-- Before all delays are over nothing is done. -/
theorem OnCourse.idle (h : execution.OnCourse reaction hello pool)
    (hearly : execution.now < reaction.totalDelay) : execution.effects = [] := by
  have hdone := h.done
  have hpaced := h.paced
  cases hstage : execution.stage with
  | deciding next =>
    rw [hstage] at hdone
    exact hdone.2
  | pausing wake next =>
    rw [hstage] at hdone
    exact hdone.2
  | _ =>
    rw [hstage] at hpaced
    exact absurd hearly (Nat.not_lt.mpr hpaced)

theorem OnCourse.replay_eq {destination : String} {replay rest : Bytes}
    (h : execution.OnCourse reaction hello pool)
    (hstage : execution.stage = .dialing destination replay ∨
      execution.stage = .replaying destination replay rest) : replay = captured hello := by
  have hdone := h.done
  rcases hstage with hdialing | hreplaying
  · rw [hdialing] at hdone
    exact hdone.2.1
  · rw [hreplaying] at hdone
    exact hdone.2.1

theorem turn?_alerting_of_ended {alert : Alert} {rest : Bytes}
    (hstage : execution.stage = .alerting alert rest) (hrest : rest ≠ [])
    (hended : execution.client.outbound.state ≠ .flowing) :
    ∃ next, execution.turn? (.move .proceed) = some (.nothing, next) ∧
      next.result? = some (.error (.broken .brokenPipe)) := by
  refine ⟨execution.shut.conclude (.error (.broken .brokenPipe)), ?_, rfl⟩
  simp [turn?, act?, step?, hstage, sendAlert?, hrest, Link.write, Pipe.write, hended]

theorem turn?_replaying_of_ended {destination : String} {replay rest : Bytes} {site : Link}
    (hstage : execution.stage = .replaying destination replay rest) (hrest : rest ≠ [])
    (hsite : execution.site = some site) (hended : site.outbound.state ≠ .flowing) :
    ∃ next, execution.turn? (.move .proceed) = some (.nothing, next) ∧
      next.result? = some (.error (.broken .brokenPipe)) := by
  refine ⟨execution.shut.conclude (.error (.broken .brokenPipe)), ?_, rfl⟩
  simp [turn?, act?, step?, hstage, hsite, replay?, hrest, Link.write, Pipe.write, hended]

/-- What a reaction may have done at any moment, and what it has done when it ends. -/
structure Conducted (reaction : Reaction) (client : Link) (hello : Option Buffer) (pool : Pool)
    (turns : List Turn) (log : List (Turn × Stream.Outcome)) (last : Execution) : Prop where
  idle : last.now < reaction.totalDelay → last.effects = []
  patient : ∀ entry ∈ last.log, reaction.totalDelay ≤ entry.1
  alert : ∀ alert, reaction.innermost = .alert alert → last.dialed = [] ∧
    last.written <+: [0x15, 0x03, 0x03, 0x00, 0x02, 0x02, alert.code] ∧
    ∀ result, last.result? = some result →
      result = .ok (.alerted alert) ∧
        last.written = [0x15, 0x03, 0x03, 0x00, 0x02, 0x02, alert.code] ∨
      result = .error (.broken .brokenPipe) ∧
        last.written ≠ [0x15, 0x03, 0x03, 0x00, 0x02, 0x02, alert.code]
  quiet : reaction.innermost = .close ∨ reaction.innermost = .none → last.dialed = [] ∧
    last.written = [] ∧ ∀ result, last.result? = some result → result = .ok .closed
  reflect : ∀ destination, reaction.innermost = .reflect destination → last.written = [] ∧
    (last.effects ≠ [] → last.dialed = [destination]) ∧
    ∀ result, last.result? = some result →
      (∃ stats, result = .ok (.reflected destination stats)) ∨
      (∃ cause, result = .error (.unreachable destination cause)) ∨
      result = .error (.broken .brokenPipe)
  unalerted : ∀ alert rest, last.stage = .alerting alert rest → rest ≠ [] →
    last.client.outbound.state ≠ .flowing →
    ∃ next, last.turn? (.move .proceed) = some (.nothing, next) ∧
      next.result? = some (.error (.broken .brokenPipe))
  unreached : ∀ cause, Turn.move (.answer (.error cause)) ∈ turns →
    ∃ destination, reaction.innermost = .reflect destination ∧
      last.result? = some (.error (.unreachable destination cause))
  unreplayed : ∀ destination replay rest site, last.stage = .replaying destination replay rest →
    rest ≠ [] → last.site = some site → site.outbound.state ≠ .flowing →
    ∃ next, last.turn? (.move .proceed) = some (.nothing, next) ∧
      next.result? = some (.error (.broken .brokenPipe))
  /-- Without a relay the client is shut, once and after all else. -/
  shut : ∀ result, last.result? = some result → last.stage.handedOver = false →
    ∃ acts, last.effects = acts ++ [.shut] ∧ Effect.shut ∉ acts
  unshut : last.result? = none → Effect.shut ∉ last.effects
  /-- The capture buffer is given back before all else. -/
  released : last.effects = [] ∧ last.hello = hello ∧ last.pool = pool ∨
    ∃ acts, last.effects = .release :: acts ∧ Effect.release ∉ acts ∧
      last.hello = none ∧ last.pool = pool.releaseAny hello
  replay : ∀ destination replay rest, last.stage = .dialing destination replay ∨
    last.stage = .replaying destination replay rest → replay = captured hello
  /-- What is said to be done is what comes to the client. -/
  serves : last.stage.handedOver = false →
    last.Serves client (sentIn log .clientToSite) (receivedIn log .siteToClient)
  goes_on : last.result? = none →
    (∃ next, last.turn? (.move .proceed) = some (.nothing, next)) ∨ last.Awaits

/-- However deep its delays are, a reaction does nothing before they are over and then what its innermost
layer says, whatever the client and the site do. It can come to that after no more than its delays. -/
theorem reaction_is_conducted (reaction : Reaction) (client : Link) (hello : Option Buffer) (pool : Pool)
    (metrics : Metrics) :
    (∀ turns log last, (start reaction client hello pool metrics).play? turns = some (log, last) →
      Conducted reaction client hello pool turns log last) ∧
    ∃ turns log due, (start reaction client hello pool metrics).play? turns = some (log, due) ∧
      due.now = reaction.totalDelay ∧ due.effects = [] ∧
      due.turn? (.move .proceed) = some (.nothing, due.decide reaction.innermost) := by
  constructor
  · intro turns log last hplay
    have hstart := onCourse_start reaction client hello pool metrics
    have hcourse := hstart.play hplay
    have hserves := Serves.play (fun _ => serves_start reaction client hello pool metrics) hplay
    have hsupplied : (start reaction client hello pool metrics).Supplied :=
      fun _ _ _ hstage => by contradiction
    refine ⟨hcourse.idle, hcourse.patient, fun _ h => hcourse.alert h, hcourse.quiet,
      fun _ h => hcourse.reflect h, fun _ _ h => turn?_alerting_of_ended h,
      fun _ h => hstart.unreached hplay h, fun _ _ _ _ h => turn?_replaying_of_ended h,
      fun _ h => hcourse.shut_last h, hcourse.unshut, hcourse.released,
      fun _ _ _ h => hcourse.replay_eq h, ?_, fun hrunning => ?_⟩
    · intro halone
      simpa using hserves halone
    · cases hstep : last.step? with
      | some next => exact .inl ⟨next, by simp only [turn?, act?, hstep, Option.map_some]⟩
      | none => exact .inr ((hsupplied.play hplay).awaits hrunning hstep)
  · obtain ⟨log, hplay⟩ := play?_patience (start reaction client hello pool metrics) reaction
    exact ⟨patience reaction, log, _, hplay, Nat.zero_add _, rfl, rfl⟩

/-- An alert after two delays, to a client that has room for three bytes at a time. -/
def warning : List Turn :=
  patience (.delayed 3 (.delayed 2 (.alert .decodeError))) ++ [
    .move .proceed, .move .proceed, .move (.party .client (.read 3)), .move .proceed,
    .move (.party .client (.read 3)), .move .proceed, .move .proceed]

theorem warning_conducted :
    ∃ log last, (start (.delayed 3 (.delayed 2 (.alert .decodeError))) (.empty 3) none (.empty 1)
        .empty).play? warning = some (log, last) ∧
      last.result? = some (.ok (.alerted .decodeError)) ∧
      last.written = [0x15, 0x03, 0x03, 0x00, 0x02, 0x02, 50] := by
  obtain ⟨log, last, hplay, hresult⟩ :
      ∃ log last, (start (.delayed 3 (.delayed 2 (.alert .decodeError))) (.empty 3) none (.empty 1)
          .empty).play? warning = some (log, last) ∧
        last.result? = some (.ok (.alerted .decodeError)) := ⟨_, _, rfl, rfl⟩
  have hconducted := (reaction_is_conducted _ _ _ _ _).1 warning log last hplay
  refine ⟨log, last, hplay, hresult, ?_⟩
  rcases (hconducted.alert .decodeError rfl).2.2 _ hresult with ⟨-, hwritten⟩ | ⟨hno, -⟩
  · exact hwritten
  · contradiction

end Execution
end Gatehouse
