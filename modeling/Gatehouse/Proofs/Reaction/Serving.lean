import Gatehouse.Proofs.Reaction.Course

namespace Gatehouse
open Gatehouse.Stream Gatehouse.Capture

namespace Execution

def Effect.bytes : Effect → Bytes
  | .write bs => bs
  | _ => []

/-- The bytes that the reaction itself has written to the client. -/
def written (execution : Execution) : Bytes := execution.effects.flatMap Effect.bytes

variable {execution execution' : Execution} {client : Link} {sent got : Bytes}

theorem written_note (execution : Execution) (effect : Effect) :
    (execution.note effect).written = execution.written ++ effect.bytes := by
  rw [written, effects_note, List.flatMap_append, List.flatMap_singleton]
  rfl

/-- Nothing of the client's stream has been read, and it gets what the reaction itself writes. -/
structure Serves (client : Link) (sent got : Bytes) (execution : Execution) : Prop where
  unread : execution.client.inbound.state ≠ .reset →
    execution.client.inbound.buffered = client.inbound.buffered ++ sent
  taken : execution.client.outbound.state ≠ .reset →
    got ++ execution.client.outbound.buffered = client.outbound.buffered ++ execution.written

theorem serves_start (reaction : Reaction) (client : Link) (hello : Option Buffer) (pool : Pool)
    (metrics : Metrics) : (start reaction client hello pool metrics).Serves client [] [] :=
  ⟨fun _ => (List.append_nil _).symm, fun _ => (List.append_nil _).symm⟩

theorem Serves.same (h : execution.Serves client sent got) (hclient : execution'.client = execution.client)
    (hwritten : execution'.written = execution.written) : execution'.Serves client sent got := by
  refine ⟨?_, ?_⟩
  · rw [hclient]
    exact h.unread
  · rw [hclient, hwritten]
    exact h.taken

theorem Serves.shut_conclude (h : execution.Serves client sent got) (result : Except Fault Outcome) :
    (execution.shut.conclude result).Serves client sent got := by
  have hwritten : (execution.shut.conclude result).written = execution.written := by
    refine (written_note execution .shut).trans ?_
    exact List.append_nil _
  refine ⟨fun hwell => ?_, fun hwell => ?_⟩
  · have hbefore := mt execution.client.inbound.later_finish.reset hwell
    exact (Pipe.buffered_finish _).trans (h.unread hbefore)
  · have hout : (execution.shut.conclude result).client.outbound = execution.client.outbound.finish :=
      Pipe.finish_finish _
    rw [hout] at hwell
    have hbefore := mt execution.client.outbound.later_finish.reset hwell
    rw [hout, Pipe.buffered_finish, hwritten]
    exact h.taken hbefore

theorem Serves.decide (h : execution.Serves client sent got) (next : Reaction) :
    (execution.decide next).Serves client sent got := by
  have hrelease : execution.release.written = execution.written :=
    (written_note _ .release).trans (List.append_nil _)
  have hreleased : execution.release.Serves client sent got := h.same rfl hrelease
  cases next with
  | delayed delay later => exact h.same rfl rfl
  | alert alert => exact hreleased.same rfl rfl
  | close => exact hreleased.shut_conclude _
  | none => exact hreleased.shut_conclude _
  | reflect destination =>
    have hdial : (execution.release.note (.dial destination)).written = execution.release.written :=
      (written_note _ _).trans (List.append_nil _)
    exact hreleased.same rfl hdial

theorem Serves.act_client (h : execution.Serves client sent got) (deed : Deed) :
    ({ execution with client := (execution.client.actFar deed).2 } : Execution).Serves client
      (sent ++ deed.sent (execution.client.actFar deed).1)
      (got ++ (execution.client.actFar deed).1.received) := by
  refine ⟨fun hwell => ?_, fun hwell => ?_⟩
  · have hbefore := h.unread (mt (execution.client.later_actFar_inbound deed).reset hwell)
    rw [(execution.client.fed_actFar deed).buffered_eq hwell, hbefore, List.append_assoc]
  · have hbefore := h.taken (mt (execution.client.later_actFar_outbound deed).reset hwell)
    rw [(execution.client.drained_actFar deed).buffered_eq hwell, ← List.append_assoc] at hbefore
    exact hbefore

theorem Serves.went {turn : Turn} {outcome : Stream.Outcome}
    (h : execution.stage.handedOver = false → execution.Serves client sent got)
    (hwent : Went execution turn outcome execution') (halone : execution'.stage.handedOver = false) :
    execution'.Serves client (sent ++ turn.sent outcome .clientToSite)
      (got ++ turn.received outcome .siteToClient) := by
  have hstill (hserves : execution'.Serves client sent got) (hsent : turn.sent outcome .clientToSite = [])
      (hgot : turn.received outcome .siteToClient = []) :
      execution'.Serves client (sent ++ turn.sent outcome .clientToSite)
        (got ++ turn.received outcome .siteToClient) := by
    rwa [hsent, hgot, List.append_nil, List.append_nil]
  have hserves {stage : Stage} (hstage : execution.stage = stage) (hno : stage.handedOver = false) :
      execution.Serves client sent got := h (hstage ▸ hno)
  cases hwent with
  | decided stage => exact hstill ((hserves stage rfl).decide _) rfl rfl
  | woke stage | connected stage | passed stage =>
    exact hstill ((hserves stage rfl).same rfl rfl) rfl rfl
  | alerted stage | unalerted stage | unreached stage | unreplayed stage =>
    exact hstill ((hserves stage rfl).shut_conclude _) rfl rfl
  | @wrote alert front rest stage flowing =>
    obtain ⟨hunread, htaken⟩ := hserves stage rfl
    refine hstill ⟨hunread, fun hwell => ?_⟩ rfl rfl
    calc got ++ (execution.client.outbound.buffered ++ front)
      _ = client.outbound.buffered ++ execution.written ++ front := by
        rw [← List.append_assoc, htaken hwell]
      _ = client.outbound.buffered ++ (execution.note (.write front)).written := by
        rw [written_note, List.append_assoc]
        rfl
  | replayed stage => contradiction
  | relayed stage _ _ =>
    rw [handedOver_relayed] at halone
    contradiction
  | elapsed time =>
    obtain ⟨now, stage, near, site, hello, pool, metrics, log⟩ := execution
    cases stage with
    | relaying destination replayed relay => contradiction
    | _ => exact hstill ((h halone).same rfl rfl) rfl rfl
  | client deed =>
    obtain ⟨now, stage, near, site, hello, pool, metrics, log⟩ := execution
    cases stage with
    | relaying destination replayed relay => contradiction
    | _ => exact (h halone).act_client deed
  | site there deed =>
    obtain ⟨now, stage, near, site, hello, pool, metrics, log⟩ := execution
    cases stage with
    | relaying destination replayed relay => contradiction
    | _ => exact hstill ((h halone).same rfl rfl) rfl rfl

theorem Serves.play {turns : List Turn} {log : List (Turn × Stream.Outcome)}
    (h : execution.stage.handedOver = false → execution.Serves client sent got)
    (hplay : execution.play? turns = some (log, execution'))
    (halone : execution'.stage.handedOver = false) :
    execution'.Serves client (sent ++ sentIn log .clientToSite) (got ++ receivedIn log .siteToClient) := by
  induction turns generalizing execution sent got log with
  | nil =>
    obtain ⟨rfl, rfl⟩ := Prod.mk.inj (Option.some.inj hplay)
    simpa [sentIn, receivedIn] using h halone
  | cons turn rest ih =>
    obtain ⟨outcome, next, later, hturn, hrest, rfl⟩ := play?_cons.mp hplay
    have hlast := ih (Serves.went h (Execution.went hturn)) hrest
    simpa [sentIn, receivedIn, List.append_assoc] using hlast

end Execution
end Gatehouse
