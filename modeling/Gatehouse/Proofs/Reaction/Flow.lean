import Gatehouse.Proofs.Stream.Pipe
import Gatehouse.Reaction.Pump

namespace Gatehouse
open Gatehouse.Stream

/-- Of what was sent, `got` has arrived, the sink holds what comes next, `upcoming` is on its way
there, and the rest is in the source. A sink that has ended takes no more; a source that broke may
have lost its rest. -/
structure Flow (sent got : Bytes) (source : Pipe) (upcoming : Bytes) (sink : Pipe) : Prop where
  arrived : got ++ sink.buffered <+: sent
  underway : sink.state = .flowing → got ++ sink.buffered ++ upcoming ++ source.buffered <+: sent
  whole : sink.state = .flowing → source.state ≠ .reset →
    got ++ sink.buffered ++ upcoming ++ source.buffered = sent

namespace Flow
variable {sent got upcoming : Bytes} {source sink : Pipe}

/-- Nothing has arrived yet, and nothing of what was sent is lost. -/
theorem start (upcoming : Bytes) (source : Pipe) (h : sink.buffered = []) :
    Flow (upcoming ++ source.buffered) [] source upcoming sink := by
  refine ⟨?_, ?_, ?_⟩
  · simp [h]
  · simp [h]
  · simp [h]

/-- Once the sink has ended, only what is in it still counts. -/
theorem of_ended {source' sink' : Pipe} {upcoming' : Bytes}
    (h : Flow sent got source upcoming sink) (hbuffered : sink'.buffered = sink.buffered)
    (hstate : sink'.state ≠ .flowing) : Flow sent got source' upcoming' sink' := by
  refine ⟨?_, fun hflow => absurd hflow hstate, fun hflow => absurd hflow hstate⟩
  rw [hbuffered]
  exact h.arrived

theorem finish {source' : Pipe} {upcoming' : Bytes} (h : Flow sent got source upcoming sink) :
    Flow sent got source' upcoming' sink.finish :=
  h.of_ended (by simp) sink.state_finish_ne

/-- Another sink that holds the same is as good. -/
theorem of_buffered {sink' : Pipe} (h : Flow sent got source upcoming sink)
    (hbuffered : sink'.buffered = sink.buffered)
    (hstate : sink'.state = .flowing → sink.state = .flowing) :
    Flow sent got source upcoming sink' := by
  refine ⟨?_, ?_, ?_⟩
  · rw [hbuffered]
    exact h.arrived
  · intro hflow
    rw [hbuffered]
    exact h.underway (hstate hflow)
  · intro hflow hwell
    rw [hbuffered]
    exact h.whole (hstate hflow) hwell

/-- Bytes leave the source and are on their way. -/
theorem take {chunk rest : Bytes} (h : Flow sent got source [] sink)
    (hbuffered : source.buffered = chunk ++ rest) :
    Flow sent got { source with buffered := rest } chunk sink := by
  refine ⟨h.arrived, ?_, ?_⟩
  · intro hflow
    have hunderway := h.underway hflow
    rw [hbuffered, List.append_nil, ← List.append_assoc] at hunderway
    exact hunderway
  · intro hflow hwell
    have hwhole := h.whole hflow hwell
    rw [hbuffered, List.append_nil, ← List.append_assoc] at hwhole
    exact hwhole

/-- Bytes on their way come into the sink. -/
theorem put {front rest : Bytes} (h : Flow sent got source (front ++ rest) sink)
    (hflow : sink.state = .flowing) :
    Flow sent got source rest { sink with buffered := sink.buffered ++ front } := by
  have hassoc : got ++ (sink.buffered ++ front) ++ rest ++ source.buffered =
      got ++ sink.buffered ++ (front ++ rest) ++ source.buffered := by
    simp only [List.append_assoc]
  refine ⟨?_, ?_, ?_⟩
  · have hunderway := h.underway hflow
    rw [← hassoc, List.append_assoc _ rest] at hunderway
    exact (List.prefix_append _ _).trans hunderway
  · intro _
    rw [hassoc]
    exact h.underway hflow
  · intro _ hwell
    rw [hassoc]
    exact h.whole hflow hwell

/-- The sender acts. -/
theorem fed {bs : Bytes} {source' : Pipe} (h : Flow sent got source upcoming sink)
    (hfed : Fed source bs source') : Flow (sent ++ bs) got source' upcoming sink := by
  have harrived := h.arrived.trans (List.prefix_append sent bs)
  cases hfed with
  | reset =>
    refine ⟨harrived, ?_, fun _ hwell => absurd rfl hwell⟩
    intro hflow
    rw [Pipe.buffered_reset, List.append_nil, List.append_nil]
    exact (List.prefix_append _ _).trans (h.underway hflow)
  | put buffered state open_of =>
    have hassoc : got ++ sink.buffered ++ upcoming ++ source'.buffered =
        got ++ sink.buffered ++ upcoming ++ source.buffered ++ bs := by
      rw [buffered, List.append_assoc _ source.buffered]
    refine ⟨harrived, ?_, ?_⟩
    · intro hflow
      rw [hassoc]
      by_cases hbs : bs = []
      · rw [hbs, List.append_nil, List.append_nil]
        exact h.underway hflow
      · have hwell : source.state ≠ .reset := by
          rw [open_of hbs]
          decide
        exact ⟨[], by rw [List.append_nil, h.whole hflow hwell]⟩
    · intro hflow hwell
      rw [hassoc, h.whole hflow (mt state.mpr hwell)]

/-- The receiver acts. -/
theorem drained {bs : Bytes} {sink' : Pipe} (h : Flow sent got source upcoming sink)
    (hdrained : Drained sink bs sink') : Flow sent (got ++ bs) source upcoming sink' := by
  cases hdrained with
  | reset =>
    refine ⟨?_, fun hflow => by contradiction, fun hflow => by contradiction⟩
    rw [Pipe.buffered_reset, List.append_nil, List.append_nil]
    exact (List.prefix_append _ _).trans h.arrived
  | took buffered state =>
    have hassoc : got ++ bs ++ sink'.buffered = got ++ sink.buffered := by
      rw [buffered, List.append_assoc]
    refine ⟨?_, ?_, ?_⟩
    · rw [hassoc]
      exact h.arrived
    · intro hflow
      rw [hassoc]
      exact h.underway (state hflow)
    · intro hflow hwell
      rw [hassoc]
      exact h.whole (state hflow) hwell

end Flow

namespace Pump

/-- The part of a chunk that is still to be written. -/
def held (pump : Pump) : Bytes :=
  match pump.phase with
  | .writing rest _ => rest
  | _ => []

end Pump
end Gatehouse
