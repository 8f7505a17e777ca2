import Gatehouse.Proofs.Reaction.Way

namespace Gatehouse
open Gatehouse.Stream

namespace Pump

/-- What one step of a pump can be. -/
inductive Stepped (pump : Pump) (source sink : Pipe) : Pump → Pipe → Pipe → Prop
  | took {chunk rest : Bytes} (phase : pump.phase = .reading) (some_bytes : chunk ≠ [])
      (room : chunk.length ≤ chunkSize) (buffered : source.buffered = chunk ++ rest) :
      Stepped pump source sink { pump with phase := .writing chunk chunk.length }
        { source with buffered := rest } sink
  | closed {how : Ending} (phase : pump.phase = .reading) (by_reader : how ≠ .writeFailed) :
      Stepped pump source sink { pump with phase := .ended how } source sink.finish
  | put {front rest : Bytes} {size : Nat} (phase : pump.phase = .writing (front ++ rest) size)
      (more : rest ≠ []) :
      Stepped pump source sink ⟨.writing rest size, pump.counted, pump.accepted + front.length⟩
        source { sink with buffered := sink.buffered ++ front }
  | finished {rest : Bytes} {size : Nat} (phase : pump.phase = .writing rest size) :
      Stepped pump source sink ⟨.reading, pump.counted + size, pump.accepted + rest.length⟩
        source { sink with buffered := sink.buffered ++ rest }
  | failed {rest : Bytes} {size : Nat} (phase : pump.phase = .writing rest size) :
      Stepped pump source sink { pump with phase := .ended .writeFailed } source sink

variable {pump pump' : Pump} {source source' sink sink' : Pipe}

theorem stepped (hstep : pump.step source sink = some (pump', source', sink')) :
    Stepped pump source sink pump' source' sink' := by
  unfold step at hstep
  cases hphase : pump.phase with
  | ended how => simp [hphase] at hstep
  | reading =>
    rw [hphase] at hstep
    simp only at hstep
    rcases source.read_cases chunkSize with ⟨result, hresult, hread⟩ | ⟨bs, rest, hread, hbuffered⟩
    · rw [hread] at hstep
      rcases hresult with rfl | rfl
      · simp at hstep
      · simp only [close, Option.some.injEq, Prod.mk.injEq] at hstep
        obtain ⟨rfl, rfl, rfl⟩ := hstep
        exact .closed hphase (by simp)
    · rw [hread] at hstep
      cases bs with
      | nil =>
        obtain ⟨-, -, hsame⟩ := Pipe.read_eq_end (by decide) hread
        rw [hsame] at hstep
        simp only [close, Option.some.injEq, Prod.mk.injEq] at hstep
        obtain ⟨rfl, rfl, rfl⟩ := hstep
        exact .closed hphase (by simp)
      | cons b bs =>
        simp only [Option.some.injEq, Prod.mk.injEq] at hstep
        obtain ⟨rfl, rfl, rfl⟩ := hstep
        exact .took hphase (by simp) (Pipe.length_read_le hread) hbuffered
  | writing rest size =>
    rw [hphase] at hstep
    simp only at hstep
    rcases sink.write_cases rest with ⟨result, hresult, hwrite⟩ | ⟨k, hk, -, hwrite⟩
    · rw [hwrite] at hstep
      rcases hresult with rfl | ⟨rfl, -⟩
      · simp at hstep
      · simp only [Option.some.injEq, Prod.mk.injEq] at hstep
        obtain ⟨rfl, rfl, rfl⟩ := hstep
        exact .failed hphase
    · rw [hwrite] at hstep
      simp only at hstep
      split at hstep
      · rename_i hmore
        simp only [Option.some.injEq, Prod.mk.injEq] at hstep
        obtain ⟨rfl, rfl, rfl⟩ := hstep
        have hput : pump.Stepped source sink
            ⟨.writing (rest.drop k) size, pump.counted, pump.accepted + (rest.take k).length⟩ source
            { sink with buffered := sink.buffered ++ rest.take k } :=
          .put (by rw [List.take_append_drop, hphase]) (by simpa using hmore)
        rwa [List.length_take_of_le hk] at hput
      · rename_i hall
        obtain rfl : k = rest.length := by omega
        rw [List.take_length] at hstep
        simp only [Option.some.injEq, Prod.mk.injEq] at hstep
        obtain ⟨rfl, rfl, rfl⟩ := hstep
        exact .finished hphase

/-- A pump can take no step once it has ended, while there is nothing to read, and while there is no room
for what it holds. -/
theorem step_eq_none_iff : pump.step source sink = none ↔
    pump.isEnded = true ∨ pump.phase = .reading ∧ source.Dry ∨
      (∃ rest size, pump.phase = .writing rest size) ∧ sink.Full := by
  unfold step isEnded
  cases hphase : pump.phase with
  | ended how => simp
  | reading =>
    have hwaits := source.read_waits_iff chunkSize
    simp only
    cases hread : source.read chunkSize with
    | mk result source' =>
      rw [hread] at hwaits
      cases result with
      | waiting => simpa using hwaits
      | failed fault => simpa using hwaits
      | done bs => cases bs <;> simpa using hwaits
  | writing rest size =>
    have hwaits := sink.write_waits_iff rest
    simp only
    cases hwrite : sink.write rest with
    | mk result sink' =>
      rw [hwrite] at hwaits
      cases result with
      | waiting => simpa using hwaits
      | failed fault => simpa using hwaits
      | done n =>
        simp only
        split <;> simpa using hwaits

end Pump

/-- Both ends of a way are later states of what they were. -/
structure Aged (way way' : Way) : Prop where
  source : Later way.source way'.source
  sink : Later way.sink way'.sink

theorem Aged.refl (way : Way) : Aged way way := ⟨.refl _, .refl _⟩

theorem Aged.trans {way way' way'' : Way} (h : Aged way way') (h' : Aged way' way'') :
    Aged way way'' := ⟨h.source.trans h'.source, h.sink.trans h'.sink⟩

theorem Pump.Stepped.aged {pump pump' : Pump} {source source' sink sink' : Pipe} {held held' : Bytes}
    (h : pump.Stepped source sink pump' source' sink') :
    Aged ⟨source, held, sink⟩ ⟨source', held', sink'⟩ := by
  cases h with
  | took => exact ⟨.of_state rfl, .refl _⟩
  | closed => exact ⟨.refl _, sink.later_finish⟩
  | put => exact ⟨.refl _, .of_state rfl⟩
  | finished => exact ⟨.refl _, .of_state rfl⟩
  | failed => exact ⟨.refl _, .refl _⟩

namespace Relay
variable {relay relay' : Relay}

theorem aged_conclude (relay : Relay) (direction : Direction) :
    Aged (relay.way direction) (relay.conclude.way direction) := by
  cases direction <;> exact ⟨Pipe.later_finish _, Pipe.later_finish _⟩

theorem aged_notice (relay : Relay) (direction : Direction) :
    Aged (relay.way direction) (relay.notice.way direction) := by
  rcases relay.notice_cases with ⟨-, hnotice⟩ | ⟨deadline, hnotice⟩
  · rw [hnotice]
    exact relay.aged_conclude direction
  · rw [hnotice]
    cases direction <;> exact .refl _

/-- The relay after a pump has worked on its direction, before anyone has noticed. -/
def worked (relay : Relay) (pump : Pump) (source sink : Pipe) : Direction → Relay
  | .clientToSite =>
    { relay with
      forward := pump
      client := { relay.client with inbound := source }
      site := { relay.site with outbound := sink } }
  | .siteToClient =>
    { relay with
      backward := pump
      site := { relay.site with inbound := source }
      client := { relay.client with outbound := sink } }

section Worked
variable (relay : Relay) (pump : Pump) (source sink : Pipe) (direction : Direction)

theorem pump_worked : (relay.worked pump source sink direction).pump direction = pump := by
  cases direction <;> rfl

theorem way_worked :
    (relay.worked pump source sink direction).way direction = ⟨source, pump.held, sink⟩ := by
  cases direction <;> rfl

theorem deadline_worked : (relay.worked pump source sink direction).deadline = relay.deadline := by
  cases direction <;> rfl

variable {direction} {other : Direction} (hother : other ≠ direction)
include hother

theorem pump_worked_ne : (relay.worked pump source sink direction).pump other = relay.pump other := by
  cases direction <;> cases other
  · contradiction
  · rfl
  · rfl
  · contradiction

theorem way_worked_ne : (relay.worked pump source sink direction).way other = relay.way other := by
  cases direction <;> cases other
  · contradiction
  · rfl
  · rfl
  · contradiction

end Worked

theorem pumpStep?_eq (relay : Relay) (direction : Direction) :
    relay.pumpStep? direction = if relay.returned then none
      else ((relay.pump direction).step (relay.way direction).source (relay.way direction).sink).map
        fun (pump, source, sink) => (relay.worked pump source sink direction).notice := by
  cases direction <;> rfl

theorem pumpStep?_eq_some_iff {direction : Direction} :
    relay.pumpStep? direction = some relay' ↔ relay.returned = false ∧
      ∃ pump source sink,
        (relay.pump direction).step (relay.way direction).source (relay.way direction).sink =
          some (pump, source, sink) ∧
        (relay.worked pump source sink direction).notice = relay' := by
  rw [pumpStep?_eq]
  cases relay.returned with
  | true => simp
  | false => simp [Option.map_eq_some_iff]

theorem pumpStep?_eq_none_iff (hrunning : relay.returned = false) {direction : Direction} :
    relay.pumpStep? direction = none ↔
      (relay.pump direction).step (relay.way direction).source (relay.way direction).sink = none := by
  rw [pumpStep?_eq, hrunning]
  simp

theorem aged_pumpStep {worker : Direction} (hstep : relay.pumpStep? worker = some relay')
    (direction : Direction) : Aged (relay.way direction) (relay'.way direction) := by
  obtain ⟨-, pump, source, sink, hpump, rfl⟩ := pumpStep?_eq_some_iff.mp hstep
  refine .trans ?_ (aged_notice _ direction)
  by_cases hsame : direction = worker
  · subst hsame
    rw [way_worked, ← relay.pump_way direction]
    exact (Pump.stepped hpump).aged
  · rw [way_worked_ne _ _ _ _ hsame]
    exact .refl _

theorem expire_cases (hstep : relay.expire? = some relay') :
    relay.deadline ≠ none ∧ relay.returned = false ∧ relay' = relay.conclude := by
  unfold expire? at hstep
  cases hdeadline : relay.deadline with
  | none => simp [hdeadline] at hstep
  | some t =>
    simp only [hdeadline] at hstep
    split at hstep
    · rename_i hover
      rw [Bool.and_eq_true] at hover
      exact ⟨by simp, by simpa using hover.1, (Option.some.inj hstep).symm⟩
    · simp at hstep

theorem aged_actParty (relay : Relay) (who : Party) (deed : Deed) (direction : Direction) :
    Aged (relay.way direction) ((relay.actParty who deed).2.way direction) := by
  cases who with
  | client =>
    have hin := relay.client.later_actFar_inbound deed
    have hout := relay.client.later_actFar_outbound deed
    cases direction with
    | clientToSite => exact ⟨hin, .refl _⟩
    | siteToClient => exact ⟨.refl _, hout⟩
  | site =>
    have hin := relay.site.later_actFar_inbound deed
    have hout := relay.site.later_actFar_outbound deed
    cases direction with
    | clientToSite => exact ⟨.refl _, hout⟩
    | siteToClient => exact ⟨hin, .refl _⟩

theorem aged_act {move : Move} {outcome : Outcome} (hact : relay.act? move = some (outcome, relay'))
    (direction : Direction) : Aged (relay.way direction) (relay'.way direction) := by
  cases move with
  | pump worked =>
    simp only [act?, Option.map_eq_some_iff, Prod.mk.injEq] at hact
    obtain ⟨_, hstep, -, rfl⟩ := hact
    exact aged_pumpStep hstep direction
  | expire =>
    simp only [act?, Option.map_eq_some_iff, Prod.mk.injEq] at hact
    obtain ⟨_, hstep, -, rfl⟩ := hact
    rw [(expire_cases hstep).2.2]
    exact relay.aged_conclude direction
  | elapse time =>
    simp only [act?, Option.some.injEq, Prod.mk.injEq] at hact
    obtain ⟨-, rfl⟩ := hact
    cases direction <;> exact .refl _
  | party who deed =>
    simp only [act?, Option.some.injEq] at hact
    have haged := relay.aged_actParty who deed direction
    rwa [hact] at haged

/-- A move of a relay, with the relay before and after it. -/
structure Passage where
  move : Move
  before : Relay
  after : Relay

/-- The moves of a run, one after the other, and the relay after them, if all of them are possible. -/
def run? (relay : Relay) : List Move → Option (List Passage × Relay)
  | [] => some ([], relay)
  | move :: rest => do
    let (_, next) ← relay.act? move
    let (log, last) ← next.run? rest
    return (⟨move, relay, next⟩ :: log, last)

variable {log : List Passage} {last : Relay} {moves : List Move}

theorem run?_cons {move : Move} :
    relay.run? (move :: moves) = some (log, last) ↔
      ∃ outcome next later, relay.act? move = some (outcome, next) ∧
        next.run? moves = some (later, last) ∧ log = ⟨move, relay, next⟩ :: later := by
  simp only [run?, Option.bind_eq_bind, Option.bind_eq_some_iff, Prod.exists, Option.pure_def,
    Option.some.injEq, Prod.mk.injEq]
  constructor
  · rintro ⟨outcome, next, hact, later, _, hrest, rfl, rfl⟩
    exact ⟨outcome, next, later, hact, hrest, rfl⟩
  · rintro ⟨outcome, next, later, hact, hrest, rfl⟩
    exact ⟨outcome, next, hact, later, last, hrest, rfl, rfl⟩

theorem aged_run (hrun : relay.run? moves = some (log, last)) (direction : Direction) :
    Aged (relay.way direction) (last.way direction) := by
  induction moves generalizing relay log with
  | nil =>
    obtain ⟨rfl, rfl⟩ := Prod.mk.inj (Option.some.inj hrun)
    exact .refl _
  | cons move rest ih =>
    obtain ⟨outcome, next, later, hact, hrest, rfl⟩ := run?_cons.mp hrun
    exact (aged_act hact direction).trans (ih hrest)

end Relay
end Gatehouse
