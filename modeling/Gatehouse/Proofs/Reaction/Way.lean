import Gatehouse.Proofs.Reaction.Flow
import Gatehouse.Reaction.Relay

namespace Gatehouse
open Gatehouse.Stream

/-- Bytes are read from the source, held for a while, and written to the sink. -/
structure Way where
  source : Pipe
  held : Bytes
  sink : Pipe

/-- What can happen on a way without a byte being given up, with the bytes that the sender puts in and
those that the receiver takes out. -/
inductive Passing : Way → Bytes → Bytes → Way → Prop
  | still (way : Way) : Passing way [] [] way
  | took {source sink : Pipe} {chunk rest : Bytes} (buffered : source.buffered = chunk ++ rest) :
      Passing ⟨source, [], sink⟩ [] [] ⟨{ source with buffered := rest }, chunk, sink⟩
  | put {source sink : Pipe} {front rest : Bytes} (flowing : sink.state = .flowing) :
      Passing ⟨source, front ++ rest, sink⟩ [] []
        ⟨source, rest, { sink with buffered := sink.buffered ++ front }⟩
  | fed {source source' sink : Pipe} {held bs : Bytes} (fed : Fed source bs source')
      (later : Later source source') : Passing ⟨source, held, sink⟩ bs [] ⟨source', held, sink⟩
  | drained {source sink sink' : Pipe} {held bs : Bytes} (drained : Drained sink bs sink')
      (later : Later sink sink') : Passing ⟨source, held, sink⟩ [] bs ⟨source, held, sink'⟩
  /-- The sender appears, with what it has sent already. -/
  | sender {source source' sink : Pipe} {held : Bytes} (empty : source.buffered = [])
      (flowing : source.state = .flowing) :
      Passing ⟨source, held, sink⟩ source'.buffered [] ⟨source', held, sink⟩
  /-- The receiver appears. -/
  | receiver {source sink sink' : Pipe} {held : Bytes} (same : sink'.buffered = sink.buffered)
      (flowing : sink.state = .flowing) : Passing ⟨source, held, sink⟩ [] [] ⟨source, held, sink'⟩

/-- The way is closed. What has not come into the sink will not come into it any more. -/
structure Closed (way way' : Way) : Prop where
  source : Later way.source way'.source
  sink : way'.sink = way.sink.finish

theorem Closed.finish {way way' : Way} (h : Closed way way') (held : Bytes) :
    Closed way ⟨way'.source.finish, held, way'.sink.finish⟩ :=
  ⟨h.source.trans way'.source.later_finish, by simp [h.sink]⟩

namespace Way
variable {sent got s g : Bytes} {way way' : Way}

/-- What has arrived is a prefix of what was sent. -/
def InOrder (sent got : Bytes) (way : Way) : Prop := Flow sent got way.source way.held way.sink

theorem InOrder.passing (h : way.InOrder sent got) (hpass : Passing way s g way') :
    way'.InOrder (sent ++ s) (got ++ g) := by
  cases hpass with
  | still => simpa using h
  | took buffered => simpa [InOrder] using Flow.take h buffered
  | put flowing => simpa [InOrder] using Flow.put h flowing
  | fed fed _ => simpa [InOrder] using Flow.fed h fed
  | drained drained _ => simpa [InOrder] using Flow.drained h drained
  | @sender source source' sink held empty flowing =>
    -- Nothing of the sender's was on the way yet: what it has sent comes behind all there was.
    have hflow : Flow sent got source held sink := h
    have hmore := hflow.arrived.trans (List.prefix_append sent source'.buffered)
    have hwell : source.state ≠ .reset := by simp [flowing]
    have hwhole (hsink : sink.state = .flowing) :
        got ++ sink.buffered ++ held ++ source'.buffered = sent ++ source'.buffered := by
      have hbefore := hflow.whole hsink hwell
      rw [empty, List.append_nil] at hbefore
      rw [hbefore]
    rw [List.append_nil]
    exact ⟨hmore, fun hsink => hwhole hsink ▸ List.prefix_rfl, fun hsink _ => hwhole hsink⟩
  | receiver same flowing => simpa [InOrder] using Flow.of_buffered h same fun _ => flowing

theorem InOrder.closed (h : way.InOrder sent got) (hclosed : Closed way way') :
    way'.InOrder sent got := by
  unfold InOrder
  rw [hclosed.sink]
  exact Flow.finish h

/-- Unless one of the two has broken the connection, what was sent is all still there. -/
def Whole (sent got : Bytes) (way : Way) : Prop :=
  way.sink.state ≠ .reset → way.source.state ≠ .reset →
    got ++ way.sink.buffered ++ way.held ++ way.source.buffered = sent

theorem Whole.passing (h : way.Whole sent got) (hpass : Passing way s g way') :
    way'.Whole (sent ++ s) (got ++ g) := by
  intro hsink hsource
  cases hpass with
  | still => simpa using h hsink hsource
  | @took source sink chunk rest buffered =>
    have hbefore := h hsink hsource
    simp only [buffered, List.append_assoc, List.append_nil] at hbefore ⊢
    exact hbefore
  | put flowing =>
    have hbefore := h hsink hsource
    simp only [List.append_assoc, List.append_nil] at hbefore ⊢
    exact hbefore
  | @fed source source' sink held bs fed later =>
    cases fed with
    | reset => contradiction
    | put buffered state open_of =>
      have hbefore : got ++ sink.buffered ++ held ++ source.buffered = sent :=
        h hsink (mt later.reset hsource)
      simp only
      rw [buffered, ← hbefore]
      simp only [List.append_assoc, List.append_nil]
  | @drained source sink sink' held bs drained later =>
    cases drained with
    | reset => contradiction
    | took buffered state =>
      have hbefore : got ++ sink.buffered ++ held ++ source.buffered = sent :=
        h (mt later.reset hsink) hsource
      rw [buffered] at hbefore
      rw [← hbefore]
      simp only [List.append_assoc, List.append_nil]
  | @sender source source' sink held empty flowing =>
    have hbefore : got ++ sink.buffered ++ held ++ source.buffered = sent :=
      h hsink (by simp [flowing])
    rw [empty, List.append_nil] at hbefore
    simp only
    rw [List.append_nil, hbefore]
  | @receiver source sink sink' held same flowing =>
    have hbefore : got ++ sink.buffered ++ held ++ source.buffered = sent :=
      h (by simp [flowing]) hsource
    simp only
    rw [same, List.append_nil, List.append_nil, hbefore]

/-- Both ends are closed, and the receiver has all of the stream or it is there to be read, unless it
broke the connection. -/
structure Settled (sent got : Bytes) (way : Way) : Prop where
  source : way.source.state ≠ .flowing
  sink : way.sink.state ≠ .flowing
  all : way.sink.state ≠ .reset → got ++ way.sink.buffered = sent

theorem Settled.passing (h : way.Settled sent got) (hpass : Passing way s g way') :
    way'.Settled (sent ++ s) (got ++ g) := by
  cases hpass with
  | still => simpa using h
  | took buffered => exact ⟨h.source, h.sink, by simpa using h.all⟩
  | put flowing => exact absurd flowing h.sink
  | fed fed later =>
    refine ⟨mt later.flowing h.source, h.sink, fun hwell => ?_⟩
    have hnone : s = [] := by
      cases fed with
      | reset => rfl
      | put _ _ open_of => exact Decidable.not_not.mp (mt open_of h.source)
    simpa [hnone] using h.all hwell
  | @drained source sink sink' held _ drained later =>
    refine ⟨h.source, mt later.flowing h.sink, fun hwell => ?_⟩
    cases drained with
    | reset => contradiction
    | took buffered state =>
      have hbefore : got ++ sink.buffered = sent := h.all (mt later.reset hwell)
      rw [List.append_nil, ← hbefore, buffered, List.append_assoc]
  | sender empty flowing => exact absurd flowing h.source
  | receiver same flowing => exact absurd flowing h.sink

theorem Settled.closed (h : way.Settled sent got) (hclosed : Closed way way') :
    way'.Settled sent got := by
  have hsink : way'.sink = way.sink := hclosed.sink.trans (Pipe.finish_of_ended h.sink)
  exact ⟨mt hclosed.source.flowing h.source, hsink ▸ h.sink, hsink ▸ h.all⟩

end Way

namespace Pump
variable {pump pump' : Pump} {source source' sink sink' : Pipe}

/-- A pump passes bytes on, or ends and closes its way. It finds the end of its stream behind the last
byte, with nothing left to be written. -/
theorem step_cases (hstep : pump.step source sink = some (pump', source', sink')) :
    pump.isEnded = false ∧
      (Passing ⟨source, pump.held, sink⟩ [] [] ⟨source', pump'.held, sink'⟩ ∧
          pump'.isEnded = false ∨
        Closed ⟨source, pump.held, sink⟩ ⟨source', pump'.held, sink'⟩ ∧ pump'.isEnded = true ∧
          (pump'.phase = .ended .endOfStream →
            pump.held = [] ∧ source.state = .finished ∧ source.buffered = [])) := by
  obtain ⟨phase, counted, accepted⟩ := pump
  unfold step at hstep
  cases phase with
  | ended how => simp at hstep
  | reading =>
    refine ⟨rfl, ?_⟩
    simp only at hstep
    rcases source.read_cases chunkSize with ⟨result, hresult, hread⟩ | ⟨bs, rest, hread, hbuffered⟩
    · rw [hread] at hstep
      rcases hresult with rfl | rfl
      · simp at hstep
      · simp only [close, Option.some.injEq, Prod.mk.injEq] at hstep
        obtain ⟨rfl, rfl, rfl⟩ := hstep
        exact .inr ⟨⟨.refl source, rfl⟩, rfl, fun he => by simp at he⟩
    · rw [hread] at hstep
      cases bs with
      | nil =>
        obtain ⟨hstate, hempty, -⟩ := Pipe.read_eq_end (by decide) hread
        simp only [close, Option.some.injEq, Prod.mk.injEq] at hstep
        obtain ⟨rfl, rfl, rfl⟩ := hstep
        exact .inr ⟨⟨.of_state rfl, rfl⟩, rfl, fun _ => ⟨rfl, hstate, hempty⟩⟩
      | cons b bs =>
        simp only [Option.some.injEq, Prod.mk.injEq] at hstep
        obtain ⟨rfl, rfl, rfl⟩ := hstep
        exact .inl ⟨.took hbuffered, rfl⟩
  | writing rest size =>
    refine ⟨rfl, ?_⟩
    simp only at hstep
    rcases sink.write_cases rest with ⟨result, hresult, hwrite⟩ | ⟨k, hk, hflow, hwrite⟩
    · rw [hwrite] at hstep
      rcases hresult with rfl | ⟨rfl, hended⟩
      · simp at hstep
      · simp only [Option.some.injEq, Prod.mk.injEq] at hstep
        obtain ⟨rfl, rfl, rfl⟩ := hstep
        exact .inr ⟨⟨.refl source, (Pipe.finish_of_ended hended).symm⟩, rfl, fun he => by simp at he⟩
    · rw [hwrite] at hstep
      have hput : Passing ⟨source, rest, sink⟩ [] []
          ⟨source, rest.drop k, { sink with buffered := sink.buffered ++ rest.take k }⟩ := by
        have hsplit : Passing ⟨source, rest.take k ++ rest.drop k, sink⟩ [] [] _ := .put hflow
        rwa [List.take_append_drop] at hsplit
      simp only at hstep
      split at hstep
      · simp only [Option.some.injEq, Prod.mk.injEq] at hstep
        obtain ⟨rfl, rfl, rfl⟩ := hstep
        exact .inl ⟨hput, rfl⟩
      · rename_i hall
        simp only [Option.some.injEq, Prod.mk.injEq] at hstep
        obtain ⟨rfl, rfl, rfl⟩ := hstep
        rw [List.drop_eq_nil_of_le (Nat.le_of_not_lt hall)] at hput
        exact .inl ⟨hput, rfl⟩

end Pump

namespace Relay

def way (relay : Relay) : Direction → Way
  | .clientToSite => ⟨relay.client.inbound, relay.forward.held, relay.site.outbound⟩
  | .siteToClient => ⟨relay.site.inbound, relay.backward.held, relay.client.outbound⟩

theorem held_way (relay : Relay) (direction : Direction) :
    (relay.way direction).held = (relay.pump direction).held := by cases direction <;> rfl

theorem pump_way (relay : Relay) (direction : Direction) :
    (⟨(relay.way direction).source, (relay.pump direction).held, (relay.way direction).sink⟩ : Way) =
      relay.way direction := by cases direction <;> rfl

/-- What a step of a relay does to one of its directions. -/
inductive Goes (relay relay' : Relay) (direction : Direction) : Prop
  | passes (h : Passing (relay.way direction) [] [] (relay'.way direction))
      (running : relay'.returned = false)
      (ended : (relay'.pump direction).isEnded = (relay.pump direction).isEnded)
  | closes (h : Closed (relay.way direction) (relay'.way direction))
      (spent : relay'.returned = true ∨ (relay'.pump direction).isEnded = true)

variable {relay relay' : Relay} {direction other : Direction}

theorem goes_conclude (h : Closed (relay.way direction) (relay'.way direction)) :
    relay.Goes relay'.conclude direction := by
  refine .closes ?_ (.inl rfl)
  cases direction <;> exact h.finish _

theorem notice_cases (relay : Relay) :
    (∀ direction, (relay.pump direction).isEnded = true) ∧ relay.notice = relay.conclude ∨
    ∃ deadline, relay.notice = { relay with deadline := deadline } := by
  unfold notice
  split
  · rename_i hboth
    rw [Bool.and_eq_true] at hboth
    refine .inl ⟨fun direction => ?_, rfl⟩
    cases direction with
    | clientToSite => exact hboth.1
    | siteToClient => exact hboth.2
  · split
    · exact .inr ⟨_, rfl⟩
    · exact .inr ⟨relay.deadline, rfl⟩

/-- Noticing that both pumps have ended closes what they have not closed yet. -/
theorem Goes.notice (hrunning : relay'.returned = false)
    (h : relay'.way direction = relay.way direction ∧
          relay'.pump direction = relay.pump direction ∨
      Passing (relay.way direction) [] [] (relay'.way direction) ∧
          (relay.pump direction).isEnded = false ∧ (relay'.pump direction).isEnded = false ∨
      Closed (relay.way direction) (relay'.way direction) ∧
          (relay'.pump direction).isEnded = true) :
    relay.Goes relay'.notice direction := by
  rcases relay'.notice_cases with ⟨hboth, hnotice⟩ | ⟨deadline, hnotice⟩
  · rw [hnotice]
    rcases h with ⟨hsame, -⟩ | ⟨-, -, hgoes⟩ | ⟨hclosed, -⟩
    · refine .closes ?_ (.inl rfl)
      rw [← hsame]
      cases direction <;> exact ⟨Pipe.later_finish _, rfl⟩
    · rw [hboth direction] at hgoes
      contradiction
    · exact goes_conclude hclosed
  · rw [hnotice]
    have hway : ({ relay' with deadline := deadline } : Relay).way direction =
        relay'.way direction := by cases direction <;> rfl
    have hpump : ({ relay' with deadline := deadline } : Relay).pump direction =
        relay'.pump direction := by cases direction <;> rfl
    rcases h with ⟨hsame, hpumps⟩ | ⟨hpass, hbefore, hafter⟩ | ⟨hclosed, hended⟩
    · refine .passes ?_ hrunning (by rw [hpump, hpumps])
      rw [hway, hsame]
      exact .still _
    · exact .passes (hway ▸ hpass) hrunning (by rw [hpump, hbefore, hafter])
    · exact .closes (hway ▸ hclosed) (.inr (hpump ▸ hended))

/-- A pump works on its own direction; then it is noticed whether any has ended. -/
theorem pumpStep_cases (hstep : relay.pumpStep? direction = some relay') :
    ∃ (pump : Pump) (source sink : Pipe) (next : Relay),
      (relay.pump direction).step (relay.way direction).source (relay.way direction).sink =
        some (pump, source, sink) ∧
      relay' = next.notice ∧ next.returned = false ∧ next.pump direction = pump ∧
      next.way direction = ⟨source, pump.held, sink⟩ ∧
      ∀ other, other ≠ direction →
        next.pump other = relay.pump other ∧ next.way other = relay.way other := by
  unfold pumpStep? at hstep
  split at hstep
  · simp at hstep
  · rename_i hrunning
    rw [Bool.not_eq_true] at hrunning
    cases direction with
    | clientToSite =>
      simp only [Option.map_eq_some_iff] at hstep
      obtain ⟨⟨pump, source, sink⟩, hpump, rfl⟩ := hstep
      refine ⟨pump, source, sink, _, hpump, rfl, hrunning, rfl, rfl, fun other hother => ?_⟩
      cases other with
      | clientToSite => contradiction
      | siteToClient => exact ⟨rfl, rfl⟩
    | siteToClient =>
      simp only [Option.map_eq_some_iff] at hstep
      obtain ⟨⟨pump, source, sink⟩, hpump, rfl⟩ := hstep
      refine ⟨pump, source, sink, _, hpump, rfl, hrunning, rfl, rfl, fun other hother => ?_⟩
      cases other with
      | clientToSite => exact ⟨rfl, rfl⟩
      | siteToClient => contradiction

theorem goes_pumpStep (hstep : relay.pumpStep? other = some relay') (direction : Direction) :
    relay.Goes relay' direction := by
  obtain ⟨pump, source, sink, next, hpump, rfl, hrunning, hnext, hway, hothers⟩ :=
    pumpStep_cases hstep
  refine .notice hrunning ?_
  by_cases hsame : direction = other
  · subst hsame
    rw [hway, hnext]
    obtain ⟨hbefore, ⟨hpass, hafter⟩ | ⟨hclosed, hafter, -⟩⟩ := Pump.step_cases hpump
    · exact .inr (.inl ⟨pump_way relay direction ▸ hpass, hbefore, hafter⟩)
    · exact .inr (.inr ⟨pump_way relay direction ▸ hclosed, hafter⟩)
  · obtain ⟨hpumps, hways⟩ := hothers direction hsame
    exact .inl ⟨hways, hpumps⟩

theorem goes_expire (hstep : relay.expire? = some relay') (direction : Direction) :
    relay.Goes relay' direction := by
  unfold expire? at hstep
  split at hstep
  · split at hstep
    · obtain rfl := Option.some.inj hstep
      refine .closes ?_ (.inl rfl)
      cases direction <;> exact ⟨Pipe.later_finish _, rfl⟩
    · simp at hstep
  · simp at hstep

/-- The pump that comes to the end of its stream has nothing left to write. -/
theorem way_at_end (hstep : relay.pumpStep? direction = some relay')
    (hend : (relay'.pump direction).phase = .ended .endOfStream) :
    (relay.pump direction).isEnded = false ∧ (relay.way direction).held = [] ∧
      (relay.way direction).source.state = .finished ∧
      (relay.way direction).source.buffered = [] := by
  obtain ⟨pump, source, sink, next, hpump, rfl, -, hnext, -⟩ := pumpStep_cases hstep
  have hpump' : next.notice.pump direction = pump := by
    rcases next.notice_cases with ⟨-, hnotice⟩ | ⟨deadline, hnotice⟩ <;>
      rw [hnotice, ← hnext] <;> cases direction <;> rfl
  rw [hpump'] at hend
  rw [held_way]
  obtain ⟨hbefore, ⟨-, hafter⟩ | ⟨-, -, hlast⟩⟩ := Pump.step_cases hpump
  · simp [Pump.isEnded, hend] at hafter
  · exact ⟨hbefore, hlast hend⟩

end Relay

end Gatehouse
