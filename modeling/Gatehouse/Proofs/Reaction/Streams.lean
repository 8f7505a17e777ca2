import Gatehouse.Proofs.Reaction.Carrying

namespace Gatehouse.Execution
open Gatehouse.Stream Gatehouse.Capture

/-- What is on its way when a reaction starts. -/
def underway (client : Link) (hello : Option Buffer) : Direction → Bytes
  | .clientToSite => captured hello ++ client.inbound.buffered
  | .siteToClient => client.outbound.buffered

section Invariants
variable {innermost : Reaction} {sent got s g : Direction → Bytes} {first : Bytes}
  {execution execution' : Execution}

/-- What holds all along: each direction that is borne is in order, nothing of it is lost while it is
still going, and before the relay nothing but what was there at first comes to the client. -/
structure Intact (innermost : Reaction) (first : Bytes) (sent got : Direction → Bytes)
    (execution : Execution) : Prop where
  sound : execution.Sound innermost
  inOrder : ∀ direction, innermost.Bears direction →
    (execution.way direction).InOrder (sent direction) (got direction)
  whole : ∀ direction, innermost.Bears direction → execution.going direction = true →
    (execution.way direction).Whole (sent direction) (got direction)
  silent : innermost.Bears .siteToClient → execution.hushed = true →
    got .siteToClient ++ execution.client.outbound.buffered <+: first
  shut : innermost.Bears .siteToClient → ∀ fault, execution.result? = some (.error fault) →
    execution.client.outbound.state ≠ .flowing

theorem hushed_of_error {fault : Fault} (h : execution.result? = some (.error fault)) :
    execution.hushed = true := by
  unfold result? at h
  split at h
  · rename_i result hstage
    obtain rfl := Option.some.inj h
    simp [hushed, hstage]
  · simp at h

theorem Intact.turned (h : Intact innermost first sent got execution)
    (ht : Turned innermost s g execution execution') :
    Intact innermost first (fun d => sent d ++ s d) (fun d => got d ++ g d) execution' := by
  refine ⟨ht.sound, fun direction hbears => ?_, fun direction hbears hgoing => ?_,
    fun hbears hq => ?_, fun hbears fault hfault => ?_⟩
  · cases ht.carries direction hbears with
    | passes hpass _ => exact (h.inOrder direction hbears).passing hpass
    | closes hclosed hs hg _ =>
      rw [hs, hg, List.append_nil, List.append_nil]
      exact (h.inOrder direction hbears).closed hclosed
  · cases ht.carries direction hbears with
    | passes hpass hsame => exact (h.whole direction hbears (hsame ▸ hgoing)).passing hpass
    | closes _ _ _ spent => simp [spent] at hgoing
  · obtain ⟨hbefore, hdrained⟩ := ht.hushed hbears hq
    rw [List.append_assoc]
    exact (List.prefix_append_right_inj _ |>.mpr hdrained.prefix_of).trans (h.silent hbears hbefore)
  · rcases ht.failed fault hfault with hbefore | hshut
    · exact (ht.hushed hbears (hushed_of_error hfault)).2.ended (h.shut hbears fault hbefore)
    · exact hshut

theorem Intact.play (h : Intact innermost first sent got execution) {turns : List Turn}
    (hfresh : ∀ turn ∈ turns, turn.Fresh) {log : List (Turn × Stream.Outcome)}
    (hplay : execution.play? turns = some (log, execution')) :
    Intact innermost first (fun d => sent d ++ sentIn log d) (fun d => got d ++ receivedIn log d)
      execution' := by
  induction turns generalizing execution sent got log with
  | nil =>
    obtain ⟨rfl, rfl⟩ := Prod.mk.inj (Option.some.inj hplay)
    simpa [sentIn, receivedIn] using h
  | cons turn rest ih =>
    obtain ⟨outcome, next, later, hturn, hrest, rfl⟩ := play?_cons.mp hplay
    have hnext := h.turned (h.sound.went (hfresh turn (by simp)) (went hturn))
    have hlast := ih hnext (fun t ht => hfresh t (by simp [ht])) hrest
    simpa [sentIn, receivedIn, List.append_assoc] using hlast

/-- A direction that is settled stays so. -/
theorem Sound.settled_play (h : execution.Sound innermost) {direction : Direction}
    (hbears : innermost.Bears direction) {all arrived : Bytes}
    (hsettled : (execution.way direction).Settled all arrived) {turns : List Turn}
    (hfresh : ∀ turn ∈ turns, turn.Fresh) {log : List (Turn × Stream.Outcome)}
    (hplay : execution.play? turns = some (log, execution')) :
    (execution'.way direction).Settled (all ++ sentIn log direction)
      (arrived ++ receivedIn log direction) := by
  induction turns generalizing execution all arrived log with
  | nil =>
    obtain ⟨rfl, rfl⟩ := Prod.mk.inj (Option.some.inj hplay)
    simpa [sentIn, receivedIn] using hsettled
  | cons turn rest ih =>
    obtain ⟨outcome, next, later, hturn, hrest, rfl⟩ := play?_cons.mp hplay
    have hturned := h.went (hfresh turn (by simp)) (Execution.went hturn)
    have hnext : (next.way direction).Settled (all ++ turn.sent outcome direction)
        (arrived ++ turn.received outcome direction) := by
      cases hturned.carries direction hbears with
      | passes hpass _ => exact hsettled.passing hpass
      | closes hclosed hs hg _ =>
        rw [hs, hg, List.append_nil, List.append_nil]
        exact hsettled.closed hclosed
    have hlast := ih hturned.sound hnext (fun t ht => hfresh t (by simp [ht])) hrest
    simpa [sentIn, receivedIn, List.append_assoc] using hlast

/-- A pump that finds the end of its stream settles its direction. -/
theorem Intact.settled (h : Intact innermost first sent got execution) {other : String}
    {replayed : Nat} {relay relay' : Relay} {direction : Direction}
    (hbears : innermost.Bears direction)
    (hstage : execution.stage = .relaying other replayed relay)
    (hstep : relay.pumpStep? direction = some relay')
    (hend : (relay'.pump direction).phase = .ended .endOfStream) :
    ((execution.relayed other replayed relay').way direction).Settled (sent direction)
      (got direction) := by
  obtain ⟨hbefore, hheld, hfinished, hempty⟩ := Relay.way_at_end hstep hend
  -- Up to this step nothing of the direction was given up, and after it nothing is left to be written.
  have hgoing : execution.going direction = true := by
    rw [going_of_relaying hstage, hbefore]
    rfl
  have hover : (execution.relayed other replayed relay').going direction = false := by
    unfold relayed
    split
    · rfl
    · simp [going, Pump.isEnded, hend]
  have hturned := h.sound.relayed hstage (Relay.goes_pumpStep hstep)
  cases hturned.carries direction hbears with
  | passes _ hsame => simp [hover, hgoing] at hsame
  | closes hclosed _ _ _ =>
    rw [← way_of_relaying hstage] at hheld hfinished hempty
    refine ⟨mt hclosed.source.flowing (by simp [hfinished]), ?_, fun hwell => ?_⟩
    · rw [hclosed.sink]
      exact Pipe.state_finish_ne _
    · rw [hclosed.sink] at hwell ⊢
      have hall := h.whole direction hbears hgoing (mt (Pipe.later_finish _).reset hwell) (by simp [hfinished])
      rwa [hheld, hempty, List.append_nil, List.append_nil, ← Pipe.buffered_finish] at hall

/-- A dial that fails and a replay that is not taken give an error. -/
theorem Sound.failure {destination : String} (h : execution.Sound (.reflect destination)) :
    (∀ other replay cause, execution.stage = .dialing other replay →
      ∃ next, execution.turn? (.move (.answer (.error cause))) = some (.nothing, next) ∧
        next.result? = some (.error (.unreachable destination cause))) ∧
    (∀ other replay rest site fault, execution.stage = .replaying other replay rest →
      execution.site = some site → rest ≠ [] → (site.write rest).1 = .failed fault →
      ∃ next, execution.turn? (.move .proceed) = some (.nothing, next) ∧
        next.result? = some (.error (.broken fault))) := by
  constructor
  · intro other replay cause hstage
    obtain rfl : destination = other := by simpa [hstage, Stage.Follows] using h.stage
    have hanswer : execution.answer? (.error cause) =
        some (execution.shut.conclude (.error (.unreachable destination cause))) := by
      simp only [answer?, hstage]
    refine ⟨execution.shut.conclude (.error (.unreachable destination cause)), ?_, rfl⟩
    simp only [turn?, act?, hanswer, Option.map_some]
  · intro other replay rest site fault hstage hsite hrest hwrite
    have hfailed : site.write rest = (.failed fault, (site.write rest).2) := by rw [← hwrite]
    have hstep : execution.step? = some (execution.shut.conclude (.error (.broken fault))) := by
      simp only [step?, hstage, hsite, replay?]
      rw [if_neg (by simpa using hrest), hfailed]
    refine ⟨execution.shut.conclude (.error (.broken fault)), ?_, rfl⟩
    simp only [turn?, act?, hstep, Option.map_some]

end Invariants

theorem intact_start (reaction : Reaction) (client : Link) (hello : Option Buffer) (pool : Pool)
    (metrics : Metrics) :
    Intact reaction.innermost client.outbound.buffered (underway client hello) silence
      (start reaction client hello pool metrics) := by
  refine ⟨⟨rfl, fun _ => rfl⟩, fun direction _ => ?_, fun direction _ _ => ?_,
    fun _ _ => List.prefix_rfl, fun _ _ he => by contradiction⟩
  · cases direction with
    | clientToSite => exact Flow.start _ _ rfl
    | siteToClient =>
      have hall : silence .siteToClient ++ client.outbound.buffered ++ [] ++ (Pipe.empty 0).buffered =
          client.outbound.buffered := by simp [Pipe.empty, silence]
      exact ⟨List.prefix_rfl, fun _ => ⟨[], by rw [List.append_nil]; exact hall⟩, fun _ _ => hall⟩
  · intro _ _
    cases direction with
    | clientToSite => simp [way, silence, underway, upcoming, sink, siteLink?, start, clientLink]
    | siteToClient =>
      simp [way, silence, underway, origin, returning, siteLink?, start, clientLink, Pipe.empty]

/-- Whatever becomes of a reaction, the site has received a prefix of the captured bytes and what the
client sent after them. Where no alert can come between, the same holds of the client. -/
theorem received_prefix (reaction : Reaction) (client : Link) (hello : Option Buffer) (pool : Pool)
    (metrics : Metrics) {direction : Direction} (hbears : reaction.innermost.Bears direction)
    {turns : List Turn} (hfresh : ∀ turn ∈ turns, turn.Fresh) {log : List (Turn × Stream.Outcome)}
    {last : Execution}
    (hplay : (start reaction client hello pool metrics).play? turns = some (log, last)) :
    receivedIn log direction <+: underway client hello direction ++ sentIn log direction := by
  have hlast := (intact_start reaction client hello pool metrics).play hfresh hplay
  exact (List.prefix_append _ _).trans (hlast.inOrder direction hbears).arrived

/-- Both streams of a client that is connected to another site. At any moment a receiver has got a
prefix of what was sent to it. Once a pump has found the end of its stream, the receiver has all of the
stream or can read the rest and then its end, unless it breaks its connection. If the dial or the replay
fails there is an error, and with an error nothing of the site's has come to the client, whose stream
has ended. -/
theorem reflection_carries_streams {reaction : Reaction} {destination : String}
    (hreflect : reaction.innermost = .reflect destination) (client : Link) (hello : Option Buffer)
    (pool : Pool) (metrics : Metrics) {turns : List Turn} (hfresh : ∀ turn ∈ turns, turn.Fresh)
    {log : List (Turn × Stream.Outcome)} {last : Execution}
    (hplay : (start reaction client hello pool metrics).play? turns = some (log, last)) :
    (∀ direction, receivedIn log direction <+:
      underway client hello direction ++ sentIn log direction) ∧
    (∀ direction other replayed relay relay', last.stage = .relaying other replayed relay →
      relay.pumpStep? direction = some relay' →
      (relay'.pump direction).phase = .ended .endOfStream →
      ∀ later log' final, (∀ turn ∈ later, turn.Fresh) →
        (last.relayed other replayed relay').play? later = some (log', final) →
        (final.way direction).sink.state ≠ .flowing ∧
        ((final.way direction).sink.state ≠ .reset →
          receivedIn (log ++ log') direction ++ (final.way direction).sink.buffered =
            underway client hello direction ++ sentIn (log ++ log') direction ∧
          ∀ n, ((final.way direction).sink.read n).1 =
            .done ((final.way direction).sink.buffered.take n))) ∧
    (∀ other replay cause, last.stage = .dialing other replay →
      ∃ next, last.turn? (.move (.answer (.error cause))) = some (.nothing, next) ∧
        next.result? = some (.error (.unreachable destination cause))) ∧
    (∀ other replay rest site fault, last.stage = .replaying other replay rest →
      last.site = some site → rest ≠ [] → (site.write rest).1 = .failed fault →
      ∃ next, last.turn? (.move .proceed) = some (.nothing, next) ∧
        next.result? = some (.error (.broken fault))) ∧
    (∀ fault, last.result? = some (.error fault) →
      receivedIn log .siteToClient ++ last.client.outbound.buffered <+: client.outbound.buffered ∧
      last.client.outbound.state ≠ .flowing) := by
  have hbears (direction : Direction) : reaction.innermost.Bears direction := by
    rw [hreflect]
    cases direction with
    | clientToSite => trivial
    | siteToClient => exact ⟨destination, rfl⟩
  have hlast := (intact_start reaction client hello pool metrics).play hfresh hplay
  have hfailure := (hreflect ▸ hlast.sound).failure
  refine ⟨fun direction => ?_, ?_, hfailure.1, hfailure.2, fun fault hfault => ?_⟩
  · exact received_prefix reaction client hello pool metrics (hbears direction) hfresh hplay
  · intro direction other replayed relay relay' hstage hstep hend later log' final hfresh' hplay'
    have hturned := hlast.sound.relayed hstage (Relay.goes_pumpStep hstep)
    have hfinal := hturned.sound.settled_play (hbears direction)
      (hlast.settled (hbears direction) hstage hstep hend) hfresh' hplay'
    refine ⟨hfinal.sink, fun hwell => ?_⟩
    have hfinished : (final.way direction).sink.state = .finished := by
      cases hstate : (final.way direction).sink.state with
      | flowing => exact absurd hstate hfinal.sink
      | finished => rfl
      | reset => exact absurd hstate hwell
    refine ⟨?_, fun n => by rw [Pipe.read_finished hfinished]⟩
    have hall := hfinal.all hwell
    simpa [sentIn, receivedIn, silence, List.append_assoc] using hall
  · exact ⟨hlast.silent (hbears _) (hushed_of_error hfault), hlast.shut (hbears _) fault hfault⟩

/-- A client sends two bytes to a site and ends its stream. -/
def farewell : List Turn := [
  .move .proceed, .move (.answer (.ok (.empty 8))), .move .proceed,
  .move (.party .client (.write [1, 2])), .pump .clientToSite, .pump .clientToSite,
  .move (.party .client .finish)]

/-- The site gets both bytes. -/
theorem farewell_arrives :
    ∃ log last other replayed relay relay' log' final,
      (start (.reflect "site") (.empty 8) none (.empty 1) .empty).play? farewell =
        some (log, last) ∧
      last.stage = .relaying other replayed relay ∧
      relay.pumpStep? .clientToSite = some relay' ∧
      (relay'.pump .clientToSite).phase = .ended .endOfStream ∧
      (last.relayed other replayed relay').play? [.move (.party .site (.read 1))] =
        some (log', final) ∧
      receivedIn (log ++ log') .clientToSite ++ (final.way .clientToSite).sink.buffered =
        [1, 2] := by
  have hreflect : (Reaction.reflect "site").innermost = .reflect "site" := rfl
  have hfresh : ∀ turn ∈ farewell, turn.Fresh := by
    simp [farewell, Turn.Fresh, Link.empty, Pipe.empty]
  have hfresh' : ∀ turn ∈ [Turn.move (.party .site (.read 1))], turn.Fresh := by
    simp [Turn.Fresh]
  obtain ⟨-, hend, -⟩ :=
    reflection_carries_streams hreflect (.empty 8) none (.empty 1) .empty hfresh rfl
  have hall := (hend .clientToSite _ _ _ _ rfl rfl rfl _ _ _ hfresh' rfl).2 (by decide)
  exact ⟨_, _, _, _, _, _, _, _, rfl, rfl, rfl, rfl, rfl, hall.1⟩

end Gatehouse.Execution
