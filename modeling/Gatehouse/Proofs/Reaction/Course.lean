import Gatehouse.Proofs.Reaction.Turns

namespace Gatehouse
open Gatehouse.Stream Gatehouse.Capture

namespace Execution

variable {execution execution' : Execution}

/-- The client is handed to a relay. -/
def Stage.handedOver : Stage → Bool
  | .relaying _ _ _ | .returned (.ok (.reflected _ _)) => true
  | _ => false

theorem result?_eq_some_iff {result : Except Fault Outcome} :
    execution.result? = some result ↔ execution.stage = .returned result := by
  unfold result?
  cases hstage : execution.stage <;> simp

theorem result?_went {turn : Turn} {outcome : Stream.Outcome} {result : Except Fault Outcome}
    (h : execution.result? = some result) (hwent : Went execution turn outcome execution') :
    execution'.result? = some result := by
  rw [result?_eq_some_iff] at h ⊢
  cases hwent with
  | elapsed time =>
    simp only [elapse, h]
  | client deed =>
    simp only [setClientLink, h]
  | site there deed =>
    simp only [setSiteLink, h]
  | _ => simp_all

theorem result?_play {turns : List Turn} {log : List (Turn × Stream.Outcome)}
    {result : Except Fault Outcome} (h : execution.result? = some result)
    (hplay : execution.play? turns = some (log, execution')) : execution'.result? = some result :=
  preserved_play result?_went h hplay

theorem handedOver_relayed (destination : String) (replayed : Nat) (relay : Relay) :
    (execution.relayed destination replayed relay).stage.handedOver = true := by
  unfold Execution.relayed
  split <;> rfl

theorem handedOver_elapse (execution : Execution) (time : Nat) :
    (execution.elapse time).stage.handedOver = execution.stage.handedOver := by
  cases hstage : execution.stage <;> simp [elapse, hstage, Stage.handedOver]

theorem handedOver_setClientLink (execution : Execution) (link : Link) :
    (execution.setClientLink link).stage.handedOver = execution.stage.handedOver := by
  cases hstage : execution.stage <;> simp [setClientLink, hstage, Stage.handedOver]

theorem handedOver_setSiteLink (execution : Execution) (link : Link) :
    (execution.setSiteLink link).stage.handedOver = execution.stage.handedOver := by
  cases hstage : execution.stage <;> simp [setSiteLink, hstage, Stage.handedOver]

def effects (execution : Execution) : List Effect := execution.log.map (·.2)

/-- What has been done by the end of a reaction that does not become a relay, or before the relay. -/
inductive Ended (innermost : Reaction) : List Effect → Except Fault Outcome → Prop
  | closed (quiet : innermost = .close ∨ innermost = .none) :
      Ended innermost [.release, .shut] (.ok .closed)
  | alerted {alert : Alert} {writes : List Bytes} (alerts : innermost = .alert alert)
      (all : writes.flatten = alert.record) :
      Ended innermost (.release :: writes.map .write ++ [.shut]) (.ok (.alerted alert))
  | unalerted {alert : Alert} {writes : List Bytes} {rest : Bytes} (alerts : innermost = .alert alert)
      (some_left : writes.flatten ++ rest = alert.record) (rest_ne : rest ≠ []) :
      Ended innermost (.release :: writes.map .write ++ [.shut]) (.error (.broken .brokenPipe))
  | unreached {destination cause : String} (reflects : innermost = .reflect destination) :
      Ended innermost [.release, .dial destination, .shut] (.error (.unreachable destination cause))
  | unreplayed {destination : String} (reflects : innermost = .reflect destination) :
      Ended innermost [.release, .dial destination, .shut] (.error (.broken .brokenPipe))
  | reflected {destination : String} {stats : RelayStats} (reflects : innermost = .reflect destination) :
      Ended innermost [.release, .dial destination] (.ok (.reflected destination stats))

/-- What has been done when a stage is reached, and what the stage is about. -/
def Stage.Done (innermost : Reaction) (hello : Option Buffer) (effects : List Effect) : Stage → Prop
  | .deciding next | .pausing _ next => next.innermost = innermost ∧ effects = []
  | .alerting alert rest => innermost = .alert alert ∧
    ∃ writes : List Bytes, writes.flatten ++ rest = alert.record ∧ effects = .release :: writes.map .write
  | .dialing destination replay => innermost = .reflect destination ∧ replay = captured hello ∧
    effects = [.release, .dial destination]
  | .replaying destination replay rest => innermost = .reflect destination ∧
    replay = captured hello ∧ rest <:+ replay ∧ effects = [.release, .dial destination]
  | .relaying destination replayed _ => innermost = .reflect destination ∧
    replayed = (captured hello).length ∧ effects = [.release, .dial destination]
  | .returned result => Ended innermost effects result

/-- How much of the time of all delays must have passed when a stage is reached. -/
def Stage.Paced (total now : Nat) : Stage → Prop
  | .deciding next => total ≤ now + next.totalDelay
  | .pausing wake next => total ≤ wake + next.totalDelay
  | _ => total ≤ now

theorem Stage.Paced.later {stage : Stage} {total now now' : Nat} (h : stage.Paced total now)
    (hnow : now ≤ now') : stage.Paced total now' := by
  cases stage with
  | deciding next => exact Nat.le_trans h (Nat.add_le_add_right hnow _)
  | pausing wake next => exact h
  | _ => exact Nat.le_trans h hnow

/-- The capture buffer is held until anything is done, and given back then. -/
def Lending (hello : Option Buffer) (pool : Pool) (execution : Execution) : Prop :=
  execution.effects = [] ∧ execution.hello = hello ∧ execution.pool = pool ∨
    execution.effects ≠ [] ∧ execution.hello = none ∧ execution.pool = pool.releaseAny hello

/-- An execution of a reaction is on its course. -/
structure OnCourse (reaction : Reaction) (hello : Option Buffer) (pool : Pool) (execution : Execution) :
    Prop where
  done : execution.stage.Done reaction.innermost hello execution.effects
  paced : execution.stage.Paced reaction.totalDelay execution.now
  patient : ∀ entry ∈ execution.log, reaction.totalDelay ≤ entry.1
  lending : Lending hello pool execution

variable {reaction : Reaction} {hello : Option Buffer} {pool : Pool}

@[simp] theorem effects_note (execution : Execution) (effect : Effect) :
    (execution.note effect).effects = execution.effects ++ [effect] := by
  simp [effects, note]

theorem patient_note {total : Nat} (h : ∀ entry ∈ execution.log, total ≤ entry.1)
    (hnow : total ≤ execution.now) (effect : Effect) :
    ∀ entry ∈ (execution.note effect).log, total ≤ entry.1 := by
  intro entry hentry
  rcases List.mem_append.mp hentry with hbefore | hlast
  · exact h entry hbefore
  · rw [List.mem_singleton.mp hlast]
    exact hnow

theorem Lending.release (h : Lending hello pool execution) (hidle : execution.effects = []) :
    Lending hello pool execution.release := by
  rcases h with ⟨-, hhello, hpool⟩ | ⟨hacted, -, -⟩
  · refine .inr ⟨?_, rfl, ?_⟩
    · rw [Execution.release, effects_note]
      simp
    · rw [← hhello, ← hpool]
      rfl
  · contradiction

theorem Lending.note (h : Lending hello pool execution) (hacted : execution.effects ≠ [])
    (effect : Effect) : Lending hello pool (execution.note effect) := by
  rcases h with ⟨hidle, -, -⟩ | ⟨-, hhello, hpool⟩
  · contradiction
  · exact .inr ⟨by simp, hhello, hpool⟩

/-- A reaction that ends before the relay shuts the client, and has done nothing after that. -/
theorem OnCourse.shut_conclude (h : execution.OnCourse reaction hello pool)
    (hnow : reaction.totalDelay ≤ execution.now) (hacted : execution.effects ≠ [])
    {result : Except Fault Outcome}
    (hended : Ended reaction.innermost (execution.effects ++ [.shut]) result) :
    (execution.shut.conclude result).OnCourse reaction hello pool := by
  rw [← effects_note] at hended
  exact ⟨hended, hnow, patient_note h.patient hnow .shut, h.lending.note hacted .shut⟩

theorem OnCourse.decide {next : Reaction} (h : execution.OnCourse reaction hello pool)
    (hstage : execution.stage = .deciding next) :
    (execution.decide next).OnCourse reaction hello pool := by
  obtain ⟨hdone, hpaced, hpatient, hlending⟩ := h
  rw [hstage] at hdone hpaced
  obtain ⟨hinnermost, hidle⟩ := hdone
  have hgiven := hlending.release hidle
  have hrelease : execution.release.effects = [.release] := by
    rw [release, effects_note]
    exact congrArg (· ++ [Effect.release]) hidle
  have hacted : execution.release.effects ≠ [] := by simp [hrelease]
  have hkept (hnow : reaction.totalDelay ≤ execution.now) :
      ∀ entry ∈ execution.release.log, reaction.totalDelay ≤ entry.1 := patient_note hpatient hnow _
  have hclosed (hquiet : reaction.innermost = .close ∨ reaction.innermost = .none)
      (hnow : reaction.totalDelay ≤ execution.now) :
      (execution.release.shut.conclude (.ok .closed)).OnCourse reaction hello pool := by
    have heffects : (execution.release.note .shut).effects = [.release, .shut] := by
      rw [effects_note, hrelease]
      rfl
    refine ⟨?_, hnow, patient_note (hkept hnow) hnow .shut, hgiven.note hacted .shut⟩
    have hended : Ended reaction.innermost [.release, .shut] (.ok .closed) := .closed hquiet
    rw [← heffects] at hended
    exact hended
  cases next with
  | delayed delay later =>
    have hlater : later.innermost = reaction.innermost := hinnermost
    have htotal : reaction.totalDelay ≤ execution.now + (delay + later.totalDelay) := hpaced
    rw [← Nat.add_assoc] at htotal
    exact ⟨⟨hlater, hidle⟩, htotal, hpatient, hlending⟩
  | alert alert => exact ⟨⟨hinnermost.symm, [], rfl, hrelease⟩, hpaced, hkept hpaced, hgiven⟩
  | close => exact hclosed (.inl hinnermost.symm) hpaced
  | none => exact hclosed (.inr hinnermost.symm) hpaced
  | reflect destination =>
    have hreplay : captured execution.hello = captured hello := by
      rcases hlending with ⟨-, hhello, -⟩ | ⟨hno, -, -⟩
      · rw [hhello]
      · contradiction
    have heffects : (execution.release.note (.dial destination)).effects =
        [.release, .dial destination] := by
      rw [effects_note, hrelease]
      rfl
    exact ⟨⟨hinnermost.symm, hreplay, heffects⟩, hpaced, patient_note (hkept hpaced) hpaced _,
      hgiven.note hacted _⟩

theorem onCourse_start (reaction : Reaction) (client : Link) (hello : Option Buffer) (pool : Pool)
    (metrics : Metrics) : (start reaction client hello pool metrics).OnCourse reaction hello pool := by
  refine ⟨⟨rfl, rfl⟩, ?_, fun entry hentry => by simp [start] at hentry, .inl ⟨rfl, rfl, rfl⟩⟩
  exact Nat.le_add_left _ _

theorem OnCourse.went {turn : Turn} {outcome : Stream.Outcome}
    (h : execution.OnCourse reaction hello pool) (hwent : Went execution turn outcome execution') :
    execution'.OnCourse reaction hello pool := by
  obtain ⟨hdone, hpaced, hpatient, hlending⟩ := id h
  cases hwent with
  | decided stage => exact h.decide stage
  | @woke wake next stage due =>
    rw [stage] at hdone hpaced
    have htotal : reaction.totalDelay ≤ execution.now + next.totalDelay :=
      Nat.le_trans hpaced (Nat.add_le_add_right due _)
    exact ⟨hdone, htotal, hpatient, hlending⟩
  | @wrote alert front rest stage flowing =>
    rw [stage] at hdone hpaced
    obtain ⟨halerts, writes, hrecord, heffects⟩ := hdone
    have hacted : execution.effects ≠ [] := by simp [heffects]
    refine ⟨⟨halerts, writes ++ [front], ?_, ?_⟩, hpaced, patient_note hpatient hpaced _,
      hlending.note hacted _⟩
    · simpa using hrecord
    · have hwritten := effects_note execution (.write front)
      rw [heffects, List.cons_append, ← List.map_singleton, ← List.map_append] at hwritten
      exact hwritten
  | @alerted alert stage =>
    rw [stage] at hdone hpaced
    obtain ⟨halerts, writes, hrecord, heffects⟩ := hdone
    rw [List.append_nil] at hrecord
    refine h.shut_conclude hpaced (by simp [heffects]) ?_
    rw [heffects]
    exact .alerted halerts hrecord
  | @unalerted alert rest stage rest_ne =>
    rw [stage] at hdone hpaced
    obtain ⟨halerts, writes, hrecord, heffects⟩ := hdone
    refine h.shut_conclude hpaced (by simp [heffects]) ?_
    rw [heffects]
    exact .unalerted halerts hrecord rest_ne
  | connected stage site =>
    rw [stage] at hdone hpaced
    obtain ⟨hreflects, hreplay, heffects⟩ := hdone
    exact ⟨⟨hreflects, hreplay, List.suffix_refl _, heffects⟩, hpaced, hpatient, hlending⟩
  | unreached stage cause =>
    rw [stage] at hdone hpaced
    obtain ⟨hreflects, -, heffects⟩ := hdone
    refine h.shut_conclude hpaced (by simp [heffects]) ?_
    rw [heffects]
    exact .unreached hreflects
  | @passed destination replay front rest site stage =>
    rw [stage] at hdone hpaced
    obtain ⟨hreflects, hreplay, hleft, heffects⟩ := hdone
    have hless : rest <:+ replay := (List.suffix_append front rest).trans hleft
    exact ⟨⟨hreflects, hreplay, hless, heffects⟩, hpaced, hpatient, hlending⟩
  | replayed stage =>
    rw [stage] at hdone hpaced
    obtain ⟨hreflects, hreplay, -, heffects⟩ := hdone
    exact ⟨⟨hreflects, congrArg _ hreplay, heffects⟩, hpaced, hpatient, hlending⟩
  | unreplayed stage rest_ne =>
    rw [stage] at hdone hpaced
    obtain ⟨hreflects, -, -, heffects⟩ := hdone
    refine h.shut_conclude hpaced (by simp [heffects]) ?_
    rw [heffects]
    exact .unreplayed hreflects
  | @relayed destination replayed relay relay' turn move stage works act =>
    rw [stage] at hdone hpaced
    obtain ⟨hreflects, hreplayed, heffects⟩ := hdone
    unfold Execution.relayed
    split
    · refine ⟨?_, hpaced, hpatient, hlending⟩
      have hended : Ended reaction.innermost [.release, .dial destination]
        (.ok (.reflected destination (total replayed relay'.stats))) := .reflected hreflects
      rw [← heffects] at hended
      exact hended
    · exact ⟨⟨hreflects, hreplayed, heffects⟩, hpaced, hpatient, hlending⟩
  | elapsed time =>
    have hlater := hpaced.later (execution.now.le_add_right time)
    obtain ⟨now, stage, client, site, hello, pool, metrics, log⟩ := execution
    cases stage with
    | relaying destination replayed relay => exact ⟨hdone, hlater, hpatient, hlending⟩
    | _ => exact ⟨hdone, hlater, hpatient, hlending⟩
  | client deed =>
    obtain ⟨now, stage, client, site, hello, pool, metrics, log⟩ := execution
    cases stage with
    | relaying destination replayed relay => exact ⟨hdone, hpaced, hpatient, hlending⟩
    | _ => exact ⟨hdone, hpaced, hpatient, hlending⟩
  | site there deed =>
    obtain ⟨now, stage, client, site, hello, pool, metrics, log⟩ := execution
    cases stage with
    | relaying destination replayed relay => exact ⟨hdone, hpaced, hpatient, hlending⟩
    | _ => exact ⟨hdone, hpaced, hpatient, hlending⟩

theorem OnCourse.play {turns : List Turn} {log : List (Turn × Stream.Outcome)}
    (h : execution.OnCourse reaction hello pool) (hplay : execution.play? turns = some (log, execution')) :
    execution'.OnCourse reaction hello pool :=
  preserved_play OnCourse.went h hplay

end Execution
end Gatehouse
