import Gatehouse.Proofs.Reaction.Pumping

namespace Gatehouse.Relay
open Gatehouse.Stream

/-- The direction that carries what a party sends. -/
def Party.outgoing : Party → Direction
  | .client => .clientToSite
  | .site => .siteToClient

/-- The direction that carries what a party receives. -/
def Party.incoming : Party → Direction
  | .client => .siteToClient
  | .site => .clientToSite

/-- A party has given up its end. -/
structure Gone (who : Party) (relay : Relay) : Prop where
  outgoing : (relay.way who.outgoing).source.state ≠ .flowing
  incoming : (relay.way who.incoming).sink.state ≠ .flowing

/-- The linger time runs if and only if a pump has ended, until the relay returns. -/
def Attended (relay : Relay) : Prop :=
  relay.returned = false →
    (relay.deadline = none ↔ ∀ direction, (relay.pump direction).isEnded = false)

/-- The relay neither goes on by itself nor has set a time to end. -/
structure Stranded (relay : Relay) : Prop where
  unreturned : relay.returned = false
  untimed : relay.deadline = none
  unmoved : relay.step? = none

/-- A chunk of a party's is held for the other party, which leaves no room for it and sends nothing. -/
structure Holds (who : Party) (relay : Relay) : Prop where
  unreturned : relay.returned = false
  chunk : ∃ rest size, (relay.pump who.outgoing).phase = .writing rest size
  no_room : (relay.way who.outgoing).sink.Full
  idle : (relay.pump who.incoming).phase = .reading
  silent : (relay.way who.incoming).source.Dry

variable {relay relay' : Relay}

theorem Gone.aged {who : Party} (h : relay.Gone who)
    (haged : ∀ direction, Aged (relay.way direction) (relay'.way direction)) : relay'.Gone who :=
  ⟨mt (haged _).source.flowing h.outgoing, mt (haged _).sink.flowing h.incoming⟩

theorem gone_of_drop {who : Party} {outcome : Outcome}
    (hact : relay.act? (.party who .drop) = some (outcome, relay')) : relay'.Gone who := by
  simp only [act?, Option.some.injEq] at hact
  cases who with
  | client =>
    obtain ⟨-, rfl⟩ := Prod.mk.inj hact
    exact ⟨Pipe.state_finish_ne _, Pipe.state_finish_ne _⟩
  | site =>
    obtain ⟨-, rfl⟩ := Prod.mk.inj hact
    exact ⟨Pipe.state_finish_ne _, Pipe.state_finish_ne _⟩

theorem gone_of_run {who : Party} {moves : List Move} {log : List Passage} {last : Relay}
    (hrun : relay.run? moves = some (log, last)) (hdrop : Move.party who .drop ∈ moves) :
    last.Gone who := by
  induction moves generalizing relay log with
  | nil => simp at hdrop
  | cons move rest ih =>
    obtain ⟨outcome, next, later, hact, hrest, rfl⟩ := run?_cons.mp hrun
    rcases List.mem_cons.mp hdrop with rfl | hlater
    · exact (gone_of_drop hact).aged (aged_run hrest)
    · exact ih hrest hlater

theorem attended_of_returned (h : relay.returned = true) : relay.Attended := by
  intro hno
  rw [h] at hno
  contradiction

theorem attended_start (now : Nat) (client site : Link) : (start now client site).Attended := by
  intro _
  refine ⟨fun _ direction => ?_, fun _ => rfl⟩
  cases direction <;> rfl

theorem forall_running_iff (relay : Relay) :
    (∀ direction, (relay.pump direction).isEnded = false) ↔
      relay.forward.isEnded = false ∧ relay.backward.isEnded = false := by
  constructor
  · intro h
    exact ⟨h .clientToSite, h .siteToClient⟩
  · rintro ⟨hforward, hbackward⟩ direction
    cases direction with
    | clientToSite => exact hforward
    | siteToClient => exact hbackward

/-- A relay that notices what its pumps have come to is attended, if no time was set before one ended. -/
theorem attended_notice (h : relay.deadline ≠ none →
    ¬ ∀ direction, (relay.pump direction).isEnded = false) : relay.notice.Attended := by
  rw [forall_running_iff] at h
  intro hreturned
  rw [forall_running_iff]
  unfold notice at hreturned ⊢
  cases hforward : relay.forward.isEnded <;> cases hbackward : relay.backward.isEnded <;>
    simp [hforward, hbackward, conclude] at h hreturned ⊢
  exact h

theorem Attended.pumpStep {worker : Direction} (h : relay.Attended)
    (hstep : relay.pumpStep? worker = some relay') : relay'.Attended := by
  obtain ⟨hrunning, pump, source, sink, hpump, rfl⟩ := pumpStep?_eq_some_iff.mp hstep
  apply attended_notice
  rw [deadline_worked]
  intro htimed hall
  -- Had a time been set, a pump would have ended before. It is not the one that works, and stays as it is.
  refine htimed ((h hrunning).mpr fun direction => ?_)
  by_cases hsame : direction = worker
  · rw [hsame]
    exact (Pump.step_cases hpump).1
  · rw [← relay.pump_worked_ne pump source sink hsame]
    exact hall direction

theorem Attended.act {move : Move} {outcome : Outcome} (h : relay.Attended)
    (hact : relay.act? move = some (outcome, relay')) : relay'.Attended := by
  cases move with
  | pump worker =>
    simp only [act?, Option.map_eq_some_iff, Prod.mk.injEq] at hact
    obtain ⟨_, hstep, -, rfl⟩ := hact
    exact h.pumpStep hstep
  | expire =>
    simp only [act?, Option.map_eq_some_iff, Prod.mk.injEq] at hact
    obtain ⟨_, hstep, -, rfl⟩ := hact
    rw [(expire_cases hstep).2.2]
    exact attended_of_returned rfl
  | elapse time =>
    simp only [act?, Option.some.injEq, Prod.mk.injEq] at hact
    obtain ⟨-, rfl⟩ := hact
    intro hreturned
    refine (h hreturned).trans (forall_congr' fun direction => ?_)
    cases direction <;> exact .rfl
  | party who deed =>
    simp only [act?, Option.some.injEq] at hact
    obtain rfl : (relay.actParty who deed).2 = relay' := by rw [hact]
    cases who with
    | client => exact h
    | site => exact h

theorem Attended.run {moves : List Move} {log : List Passage} {last : Relay} (h : relay.Attended)
    (hrun : relay.run? moves = some (log, last)) : last.Attended := by
  induction moves generalizing relay log with
  | nil =>
    obtain ⟨rfl, rfl⟩ := Prod.mk.inj (Option.some.inj hrun)
    exact h
  | cons move rest ih =>
    obtain ⟨outcome, next, later, hact, hrest, rfl⟩ := run?_cons.mp hrun
    exact ih (h.act hact) hrest

theorem expire?_of_untimed (h : relay.deadline = none) : relay.expire? = none := by
  simp [expire?, h]

/-- Without a time set a relay stands still if and only if neither pump can take a step. -/
theorem stranded_iff (hrunning : relay.returned = false) (htimed : relay.deadline = none) :
    relay.Stranded ↔ ∀ direction,
      (relay.pump direction).step (relay.way direction).source (relay.way direction).sink = none := by
  have hmoves : relay.step? = none ↔ ∀ direction, relay.pumpStep? direction = none := by
    simp only [step?, Option.or_eq_none_iff, expire?_of_untimed htimed, and_true]
    constructor
    · rintro ⟨hforward, hbackward⟩ direction
      cases direction with
      | clientToSite => exact hforward
      | siteToClient => exact hbackward
    · intro h
      exact ⟨h _, h _⟩
  simp only [pumpStep?_eq_none_iff hrunning] at hmoves
  exact ⟨fun h => hmoves.mp h.unmoved, fun h => ⟨hrunning, htimed, hmoves.mpr h⟩⟩

theorem Stranded.holds {who : Party} (h : relay.Stranded) (hattended : relay.Attended)
    (hgone : relay.Gone who) : relay.Holds who := by
  have hblocked := (stranded_iff h.unreturned h.untimed).mp h
  have hrunning := (hattended h.unreturned).mp h.untimed
  have houtgoing := Pump.step_eq_none_iff.mp (hblocked who.outgoing)
  have hincoming := Pump.step_eq_none_iff.mp (hblocked who.incoming)
  simp only [hrunning, Bool.false_eq_true, false_or] at houtgoing hincoming
  -- What the party sent can still be read, and nothing can be written to it: both would be steps.
  rcases houtgoing with ⟨-, hdry⟩ | ⟨hchunk, hfull⟩
  · exact absurd hdry.flowing hgone.outgoing
  · rcases hincoming with ⟨hidle, hdry⟩ | ⟨-, hno⟩
    · exact ⟨h.unreturned, hchunk, hfull, hidle, hdry⟩
    · exact absurd hno.flowing hgone.incoming

theorem Holds.stranded {who : Party} (h : relay.Holds who) (hattended : relay.Attended) :
    relay.Stranded := by
  obtain ⟨rest, size, hphase⟩ := h.chunk
  have hblocked (direction : Direction) : direction = who.outgoing ∨ direction = who.incoming := by
    cases who <;> cases direction <;> simp [Party.outgoing, Party.incoming]
  have hrunning (direction : Direction) : (relay.pump direction).isEnded = false := by
    rcases hblocked direction with rfl | rfl
    · simp [Pump.isEnded, hphase]
    · simp [Pump.isEnded, h.idle]
  apply (stranded_iff h.unreturned ((hattended h.unreturned).mpr hrunning)).mpr
  intro direction
  apply Pump.step_eq_none_iff.mpr
  rcases hblocked direction with rfl | rfl
  · exact .inr (.inr ⟨h.chunk, h.no_room⟩)
  · exact .inr (.inl ⟨h.idle, h.silent⟩)

/-- Once a party has given up its end the relay returns, has its linger time running or can go on by
itself, whatever the other party does or stops doing: unless it holds a chunk of the one that has gone,
while the other leaves no room for it and has nothing to be read. -/
theorem stranded_iff_holds_chunk {now : Nat} {client site : Link} {moves : List Move}
    {log : List Passage} {last : Relay} (hrun : (start now client site).run? moves = some (log, last))
    {who : Party} (hgone : Move.party who .drop ∈ moves) : last.Stranded ↔ last.Holds who := by
  have hattended := (attended_start now client site).run hrun
  exact ⟨fun h => h.holds hattended (gone_of_run hrun hgone), fun h => h.stranded hattended⟩

/-- A client sends twice as much as a pipe takes to a site that never reads, and leaves. -/
def parting : List Move := [
  .party .client (.write (List.replicate 16 0x61)), .pump .clientToSite, .pump .clientToSite,
  .party .client (.write (List.replicate 8 0x61)), .pump .clientToSite, .party .client .drop]

theorem parting_holds_chunk :
    ∃ log last, (start 0 (.empty 8) (.empty 8)).run? parting = some (log, last) ∧
      Move.party .client .drop ∈ parting ∧ last.Holds .client := by
  have hdrop : Move.party .client .drop ∈ parting := by simp [parting]
  refine ⟨_, _, rfl, hdrop, ?_⟩
  exact (@stranded_iff_holds_chunk 0 (.empty 8) (.empty 8) parting _ _ rfl .client hdrop).mp
    ⟨rfl, rfl, rfl⟩

/-- The relay stays behind with the second half, and nothing ends it. -/
theorem parting_strands :
    ∃ log last, (start 0 (.empty 8) (.empty 8)).run? parting = some (log, last) ∧
      Move.party .client .drop ∈ parting ∧ last.Stranded :=
  ⟨_, _, rfl, by simp [parting], rfl, rfl, rfl⟩

end Gatehouse.Relay
