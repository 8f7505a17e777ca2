import Gatehouse.Proofs.Admission
import Gatehouse.Proofs.Capture.Interception
import Gatehouse.Proofs.Capture.Undecided

namespace Gatehouse.Visit
open Gatehouse.Stream Gatehouse.Capture

def Event.outcome? : Event → Option ConnectionOutcome
  | .count outcome => some outcome
  | _ => none

def Event.report? : Event → Option ProbeEvent
  | .probe event => some event
  | _ => none

/-- A reaction, with the socket and the captured bytes that it is executed on. -/
def Event.reaction? : Event → Option (Reaction × Link × Option Buffer)
  | .react reaction socket capture => some (reaction, socket, capture)
  | _ => none

/-- Whatever is counted besides the outcomes and the probes is not touched by a visit. -/
theorem value?_tally_of_none (m : Metrics) (events : List Event) {c : Counter}
    (hprobing : ∀ reason, c ≠ .probing reason)
    (h : ∀ outcome ∈ events.filterMap Event.outcome?, c ≠ .connections outcome) :
    (tally m events).value? c = m.value? c := by
  induction events generalizing m with
  | nil => rfl
  | cons e rest ih =>
    cases e with
    | count outcome =>
      simp only [List.filterMap_cons, Event.outcome?, List.forall_mem_cons] at h
      refine (ih (m.countConnection outcome) h.2).trans ?_
      rw [Metrics.countConnection, Metrics.value?_add, if_neg h.1]
    | probe event =>
      refine (ih (m.countProbe event.reason) h).trans ?_
      rw [Metrics.countProbe, Metrics.value?_add, if_neg (hprobing event.reason)]
    | letThrough => exact ih m h
    | accept => exact ih m h
    | react reaction socket capture => exact ih m h

/-- Events that count one outcome count it once. -/
theorem value?_tally_of_one (m : Metrics) (events : List Event) {outcome : ConnectionOutcome}
    (h : events.filterMap Event.outcome? = [outcome]) :
    (tally m events).value? (.connections outcome) =
      some (((m.value? (.connections outcome)).getD 0 + 1) % Nat.pow 2 64) := by
  induction events generalizing m with
  | nil => simp at h
  | cons e rest ih =>
    cases e with
    | count other =>
      simp only [List.filterMap_cons, Event.outcome?, List.cons.injEq] at h
      obtain ⟨rfl, hrest⟩ := h
      refine (value?_tally_of_none (m.countConnection other) rest (by simp) (by simp [hrest])).trans ?_
      rw [Metrics.countConnection, Metrics.value?_add, if_pos rfl, Metrics.counterLimit]
    | probe event =>
      refine (ih (m.countProbe event.reason) h).trans ?_
      rw [Metrics.countProbe, Metrics.value?_add, if_neg (by simp)]
    | letThrough => exact ih m h
    | accept => exact ih m h
    | react reaction socket capture => exact ih m h

/-- The decision that a visit is owed, once `raw` was captured. -/
inductive Owed (visit : Visit) (doorman : Doorman) (raw : Bytes) : Decision → Prop
  | judged {decision : Decision} (offer : visit.offer = .hello)
      (deserved : doorman.Deserves visit.keys visit.peer raw decision) :
      Owed visit doorman raw decision
  | refused (offer : visit.offer = .refused) :
      Owed visit doorman raw (.reject .malformedHello doorman.reaction)
  | tooLate (offer : visit.offer = .tooLate) :
      Owed visit doorman raw (.reject .handshakeTimeout doorman.reaction)

/-- A visit that may go on to its handshake. -/
structure Admitted (visit : Visit) (doorman : Doorman) (decision : Decision) : Prop where
  entered : visit.verdict ≠ some .refused
  offer : visit.offer = .hello
  allowed : decision = .pass ∨ doorman.reaction = .none

theorem Owed.goesOn_iff {visit : Visit} {doorman : Doorman} {raw : Bytes} {decision : Decision}
    (h : visit.Owed doorman raw decision) :
    visit.goesOn decision = true ↔
      visit.offer = .hello ∧ (decision = .pass ∨ doorman.reaction = .none) := by
  have hmonitor (r : Reaction) : r.isMonitorOnly = true ↔ r = .none := by
    cases r <;> simp [Reaction.isMonitorOnly]
  cases h with
  | judged offer deserved =>
    by_cases hpass : decision = .pass
    · simp [hpass, goesOn]
    · obtain ⟨reason, rfl, -⟩ := deserved.reject hpass
      simp [goesOn, offer, hmonitor]
  | refused offer => simp [goesOn, offer]
  | tooLate offer => simp [goesOn, offer]

/-- Who does not go on gets the reaction that the doorman has for everyone. -/
theorem Owed.reactionTo_eq {visit : Visit} {doorman : Doorman} {raw : Bytes} {decision : Decision}
    (h : visit.Owed doorman raw decision) (hstop : visit.goesOn decision = false) :
    reactionTo decision = doorman.reaction := by
  cases h with
  | judged offer deserved =>
    have hpass : decision ≠ .pass := by
      intro he
      subst he
      simp [goesOn, offer] at hstop
    obtain ⟨reason, rfl, -⟩ := deserved.reject hpass
    rfl
  | refused offer => rfl
  | tooLate offer => rfl

theorem decide_owed (doorman : Doorman) (visit : Visit) {post : Post} {near : Link}
    {capture : Buffer} (h : post.Inspected near capture) :
    ∃ decision, visit.Owed doorman capture.bytes decision ∧
      visit.decide doorman post =
        ((decision, decision.report visit.peer), (post.act .inspect).2.2) := by
  have hjudge := doorman.judge_sound visit.keys visit.peer capture.bytes
  unfold decide
  have hact : post.act .inspect = (.shown (some capture.bytes), (post.act .inspect).2) := by
    rw [← h.shown]
  rw [hact]
  cases hoffer : visit.offer with
  | hello => exact ⟨_, .judged hoffer hjudge.1, by rw [← hjudge.2]⟩
  | refused => exact ⟨_, .refused hoffer, rfl⟩
  | tooLate => exact ⟨_, .tooLate hoffer, rfl⟩

/-- An interception that has ended is not taken up again. -/
theorem phase_stir {post : Post} (h : post.intercept.phase = .passthrough) (deeds : List Deed) :
    (stir post deeds).intercept.phase = .passthrough := by
  induction deeds generalizing post with
  | nil => exact h
  | cons deed rest ih =>
    have hlast (phase : Phase) (hrank : Phase.passthrough.rank ≤ phase.rank) :
        phase = .passthrough := by
      cases phase <;> first | rfl | contradiction
    have hforward := post.rank_le_act deed.toAction
    rw [h] at hforward
    exact ih (hlast _ hforward)

/-- One outcome is counted, once: its counter goes up by one and may go round. All other counters stay as
they were, but for those of the probes. -/
structure Counted (events : List Event) (outcome : ConnectionOutcome) : Prop where
  once : events.filterMap Event.outcome? = [outcome]
  more (m : Metrics) : (tally m events).value? (.connections outcome) =
    some (((m.value? (.connections outcome)).getD 0 + 1) % Nat.pow 2 64)
  others (m : Metrics) (c : Counter) : c ≠ .connections outcome → (∀ reason, c ≠ .probing reason) →
    (tally m events).value? c = m.value? c

/-- What others see of a visit, given the decision on it and the connection as it was then. -/
structure Safe (visit : Visit) (doorman : Doorman) (decision : Decision) (near : Link)
    (capture : Buffer) (events : List Event) (post : Post) : Prop where
  counted : ∃ outcome, Counted events outcome
  reported : visit.verdict ≠ some .refused →
    events.filterMap Event.report? = decision.report visit.peer
  unreported : visit.verdict = some .refused → events.filterMap Event.report? = []
  letThrough : .letThrough ∈ events ↔ visit.Admitted doorman decision
  passing : .letThrough ∈ events → ∃ opened : Post,
    opened.intercept = ⟨some near, .passthrough, none⟩ ∧ post = stir opened visit.after ∧
      post.intercept.phase = .passthrough
  accepted : .accept ∈ events ↔ visit.Admitted doorman decision ∧ visit.ending = .finished
  reacted : visit.verdict ≠ some .refused → ¬ visit.Admitted doorman decision →
    events.filterMap Event.reaction? = [(doorman.reaction, near, some capture)] ∧
      post.intercept = ⟨none, .passthrough, none⟩
  spared : visit.verdict = some .refused ∨ visit.Admitted doorman decision →
    events.filterMap Event.reaction? = []

theorem counted_of_one {events : List Event} {outcome : ConnectionOutcome}
    (h : events.filterMap Event.outcome? = [outcome]) : ∃ outcome, Counted events outcome := by
  refine ⟨outcome, h, fun m => value?_tally_of_one m events h, ?_⟩
  intro m c hother hprobing
  exact value?_tally_of_none m events hprobing (by simpa [h] using hother)

/-- Reports show nothing but themselves. -/
theorem filterMap_probes {α : Type} (f : Event → Option α) (h : ∀ e, f (.probe e) = none)
    (probes : List ProbeEvent) (events : List Event) :
    (probes.map Event.probe ++ events).filterMap f = events.filterMap f := by
  have hnone : f ∘ Event.probe = fun _ => none := funext h
  rw [List.filterMap_append, List.filterMap_map, hnone]
  simp

theorem report?_probes (probes : List ProbeEvent) (events : List Event) :
    (probes.map Event.probe ++ events).filterMap Event.report? =
      probes ++ events.filterMap Event.report? := by
  have hsome : Event.report? ∘ Event.probe = some := rfl
  rw [List.filterMap_append, List.filterMap_map, hsome, List.filterMap_some]

theorem safe_refused {visit : Visit} (doorman : Doorman) (decision : Decision) (near : Link)
    (capture : Buffer) (post : Post) (h : visit.verdict = some .refused) :
    Safe visit doorman decision near capture [.count .refused] post := by
  have hno : ¬ visit.Admitted doorman decision := fun ha => ha.entered h
  refine ⟨counted_of_one rfl, ?_, fun _ => rfl, ?_, ?_, ?_, ?_, fun _ => rfl⟩
  · intro hentered
    contradiction
  · simp [hno]
  · simp
  · simp [hno]
  · intro hentered
    contradiction

theorem safe_complete {visit : Visit} {doorman : Doorman} {decision : Decision} {near : Link}
    {capture : Buffer} {post : Post} (h : visit.Admitted doorman decision)
    (hpost : post.intercept = ⟨some near, .helloCaptured, some capture⟩) :
    Safe visit doorman decision near capture
      ((decision.report visit.peer).map .probe ++ (visit.complete post).1)
      (visit.complete post).2 := by
  refine ⟨?_, ?_, ?_, ?_, ?_, ?_, ?_, ?_⟩
  · unfold complete
    cases visit.ending <;> exact counted_of_one (filterMap_probes _ (fun _ => rfl) _ _)
  · intro _
    rw [report?_probes]
    unfold complete
    cases visit.ending <;> simp [Event.report?]
  · intro hrefused
    exact absurd hrefused h.entered
  · unfold complete
    cases visit.ending <;> simp [h]
  · intro _
    refine ⟨(post.act .passThrough).2.2, ?_, rfl, phase_stir rfl visit.after⟩
    simp [Post.act, Intercept.passThrough, hpost]
  · unfold complete
    cases visit.ending <;> simp [h]
  · intro _ hno
    contradiction
  · intro _
    rw [filterMap_probes _ (fun _ => rfl)]
    unfold complete
    cases visit.ending <;> rfl

theorem safe_react {visit : Visit} {doorman : Doorman} {decision : Decision} {near : Link}
    {capture : Buffer} {post : Post} (hentered : visit.verdict ≠ some .refused)
    (hno : ¬ visit.Admitted doorman decision)
    (hpost : post.intercept = ⟨some near, .helloCaptured, some capture⟩) :
    Safe visit doorman decision near capture
      ((decision.report visit.peer).map .probe ++ (react doorman.reaction post).1)
      (react doorman.reaction post).2 := by
  have hreact : react doorman.reaction post =
      ([.count .rejected, .react doorman.reaction near (some capture)],
        { post with intercept := ⟨none, .passthrough, none⟩ }) := by
    unfold react
    rw [hpost]
    rfl
  rw [hreact]
  refine ⟨counted_of_one (filterMap_probes _ (fun _ => rfl) _ _), ?_, ?_, ?_, ?_, ?_, ?_, ?_⟩
  · intro _
    rw [report?_probes]
    simp [Event.report?]
  · intro hrefused
    contradiction
  · simp [hno]
  · simp
  · simp [hno]
  · intro _ _
    exact ⟨filterMap_probes _ (fun _ => rfl) _ _, rfl⟩
  · intro hall
    rcases hall with hrefused | ha <;> contradiction

/-- Whatever the library, the peer and the negotiation do, the gate decides on the bytes that the
library was given, and others see of the visit what they may. Before that decision nothing that
the library wrote went out. Neither are the captured bytes gone when they are to be shown, nor is
the socket when it is to be taken away. -/
theorem handle_safe (doorman : Doorman) (visit : Visit) (socket : Link) (buffer : Buffer) :
    ∃ log waiting near capture decision,
      (Post.new socket buffer).run (visit.before.map Deed.toAction) = (log, waiting) ∧
      Exchange socket buffer log near capture ∧
      (waiting.act .inspect).1 = .shown (some capture.bytes) ∧
      (waiting.act .inspect).2.2.intercept.detach.1 = some ⟨near, some capture⟩ ∧
      visit.Owed doorman capture.bytes decision ∧
      Safe visit doorman decision near capture (visit.handle doorman (.new socket buffer)).1
        (visit.handle doorman (.new socket buffer)).2 := by
  obtain ⟨near, capture, hopen, hexchange⟩ := (Post.undecided_new socket buffer).run visit.before
  have hinspected := hopen.inspected
  obtain ⟨decision, howed, hdecide⟩ := decide_owed doorman visit hinspected
  refine ⟨_, _, near, capture, decision, rfl, hexchange, hinspected.shown, hinspected.detachable,
    howed, ?_⟩
  · unfold handle
    by_cases hrefused : visit.verdict = some .refused
    · rw [if_pos hrefused]
      exact safe_refused doorman decision near capture _ hrefused
    · rw [if_neg hrefused]
      simp only [stir_eq_run, hdecide]
      cases hgo : visit.goesOn decision with
      | true =>
        have hgoes := howed.goesOn_iff.mp hgo
        simp only [if_true]
        exact safe_complete ⟨hrefused, hgoes.1, hgoes.2⟩ hinspected.intercept
      | false =>
        have hno : ¬ visit.Admitted doorman decision := by
          intro ha
          rw [howed.goesOn_iff.mpr ⟨ha.offer, ha.allowed⟩] at hgo
          contradiction
        simp only [Bool.false_eq_true, if_false]
        rw [howed.reactionTo_eq hgo]
        exact safe_react hrefused hno hinspected.intercept

end Gatehouse.Visit
