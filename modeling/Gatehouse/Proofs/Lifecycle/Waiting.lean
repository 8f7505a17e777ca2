import Gatehouse.Lifecycle.Shutdown
import Mathlib.Data.List.Basic

namespace Gatehouse.Shutdown

/-- What a waiter has to do with the signal. -/
def Waiter.Sound (s : Shutdown) : Waiter → Prop
  | .idle => True
  | .subscribed r => r.position ≤ s.sent
  | .waiting r => r.position = 0
  | .returned => s.triggered = true

theorem Waiter.Sound.mono {s s' : Shutdown} {w : Waiter} (h : w.Sound s) (hsent : s.sent ≤ s'.sent)
    (htriggered : s.triggered = true → s'.triggered = true) : w.Sound s' := by
  cases w with
  | idle => trivial
  | subscribed r => exact Nat.le_trans h hsent
  | waiting r => exact h
  | returned => exact htriggered h

/-- As no message is sent ahead of the flag, nobody who finds the flag unset has missed one. -/
theorem Waiter.Sound.step {s : Shutdown} {w w' : Waiter} (h : w.Sound s)
    (hs : s.triggered = false → s.sent = 0) (hstep : w.step? s = some w') : w'.Sound s := by
  cases w with
  | idle =>
    obtain rfl := Option.some.inj hstep
    exact Nat.le_refl s.sent
  | subscribed r =>
    obtain rfl := Option.some.inj hstep
    have hr : r.position ≤ s.sent := h
    split
    · assumption
    · have hsent := hs (Bool.eq_false_iff.mpr ‹_›)
      exact Nat.le_zero.mp (hsent ▸ hr)
  | waiting r =>
    obtain ⟨_, hreceive, rfl⟩ := Option.map_eq_some_iff.mp hstep
    have hmessage : r.position < s.sent := by
      by_contra hnone
      simp [receive?, hasMessage, hnone] at hreceive
    refine (Bool.eq_false_or_eq_true s.triggered).elim id fun hfalse => ?_
    exact absurd (hs hfalse) (Nat.ne_of_gt (Nat.zero_lt_of_lt hmessage))
  | returned => contradiction

/-- Behind the message nobody is stuck. -/
theorem Waiter.Sound.step?_isSome {s : Shutdown} {w : Waiter} (h : w.Sound s) (hs : 0 < s.sent)
    (hw : w ≠ .returned) : ∃ w', w.step? s = some w' := by
  cases w with
  | idle => exact ⟨_, rfl⟩
  | subscribed r => exact ⟨_, rfl⟩
  | waiting r =>
    have hr : r.position < s.sent := Nat.lt_of_le_of_lt (Nat.le_of_eq h) hs
    simp [step?, receive?, hasMessage, hr]
  | returned => contradiction

/-- How many steps a waiter has taken. -/
inductive Waiter.Aged : Waiter → Nat → Prop
  | idle : Aged .idle 0
  | subscribed (r : Receiver) : Aged (.subscribed r) 1
  | waiting (r : Receiver) : Aged (.waiting r) 2
  | early : Aged .returned 2
  | late : Aged .returned 3

theorem Waiter.Aged.le {w : Waiter} {n : Nat} (h : w.Aged n) : n ≤ 3 := by
  cases h <;> decide

theorem Waiter.Aged.step {s : Shutdown} {w w' : Waiter} {n : Nat} (h : w.Aged n)
    (hstep : w.step? s = some w') : w'.Aged (n + 1) := by
  cases h with
  | idle =>
    obtain rfl := Option.some.inj hstep
    exact .subscribed _
  | subscribed r =>
    obtain rfl := Option.some.inj hstep
    split
    · exact .early
    · exact .waiting r
  | waiting r =>
    obtain ⟨_, -, rfl⟩ := Option.map_eq_some_iff.mp hstep
    exact .late
  | early => contradiction
  | late => contradiction

/-- Behind the flag only the trigger that set it does anything to the signal. -/
theorem Trigger.step?_of_triggered {s s' : Shutdown} {t t' : Trigger} (hs : s.triggered = true)
    (ht : t ≠ .swapped true) (hstep : t.step? s = some (s', t')) : s' = s ∧ t' ≠ .swapped true := by
  obtain ⟨_, sent⟩ := s
  obtain rfl : _ = true := hs
  cases t with
  | idle => obtain ⟨rfl, rfl⟩ := Prod.mk.inj (Option.some.inj hstep); exact ⟨rfl, by simp⟩
  | swapped first =>
    cases first with
    | true => contradiction
    | false => obtain ⟨rfl, rfl⟩ := Prod.mk.inj (Option.some.inj hstep); exact ⟨rfl, by decide⟩
  | done => contradiction

theorem Trigger.grows_of_step? {s s' : Shutdown} {t t' : Trigger} (hstep : t.step? s = some (s', t')) :
    s.sent ≤ s'.sent ∧ (s.triggered = true → s'.triggered = true) := by
  unfold step? at hstep
  grind

/-- Nobody in between, a trigger does at once what its steps do. -/
theorem trigger_eq_steps (s : Shutdown) :
    (Trigger.idle.step? s).bind (fun (s', t) => t.step? s') = some (s.trigger, .done) := by
  obtain ⟨_ | _, sent⟩ := s <;> rfl

namespace Crowd

variable {c c' : Crowd} {moves : List Move}

def play? (c : Crowd) (moves : List Move) : Option Crowd := moves.foldlM act? c

def run? (moves : List Move) : Option Crowd := start.play? moves

/-- The trigger that was the first to take a step. -/
def first? (moves : List Move) : Option Nat :=
  moves.findSome? fun
    | .stepTrigger i => some i
    | _ => none

/-- The first trigger has taken both its steps. -/
def Sent (moves : List Move) : Prop := ∃ i, first? moves = some i ∧ 2 ≤ moves.count (.stepTrigger i)

theorem of_act? {m : Move} (h : c.act? m = some c') :
    (m = .beginWait ∧ c' = { c with waiters := c.waiters ++ [.idle] }) ∨
    (m = .beginTrigger ∧ c' = { c with triggers := c.triggers ++ [.idle] }) ∨
    (∃ i w w', m = .stepWaiter i ∧ c.waiters[i]? = some w ∧ w.step? c.shutdown = some w' ∧
      c' = { c with waiters := c.waiters.set i w' }) ∨
    (∃ i t s t', m = .stepTrigger i ∧ c.triggers[i]? = some t ∧ t.step? c.shutdown = some (s, t') ∧
      c' = { c with shutdown := s, triggers := c.triggers.set i t' }) := by
  cases m with
  | beginWait => exact .inl ⟨rfl, (Option.some.inj h).symm⟩
  | beginTrigger => exact .inr (.inl ⟨rfl, (Option.some.inj h).symm⟩)
  | stepWaiter i =>
    obtain ⟨w, hw, h⟩ := Option.bind_eq_some_iff.mp h
    obtain ⟨w', hstep, h⟩ := Option.bind_eq_some_iff.mp h
    exact .inr (.inr (.inl ⟨i, w, w', rfl, hw, hstep, (Option.some.inj h).symm⟩))
  | stepTrigger i =>
    obtain ⟨t, ht, h⟩ := Option.bind_eq_some_iff.mp h
    obtain ⟨⟨s, t'⟩, hstep, h⟩ := Option.bind_eq_some_iff.mp h
    exact .inr (.inr (.inr ⟨i, t, s, t', rfl, ht, hstep, (Option.some.inj h).symm⟩))

theorem first?_append (moves : List Move) (m : Move) :
    first? (moves ++ [m]) = (first? moves).or (first? [m]) := by
  rw [first?, List.findSome?_append]
  rfl

/-- How far the signal is: who was the first to trigger it, and who will send. -/
inductive Stage (moves : List Move) : Shutdown → List Trigger → Prop
  | quiet {triggers : List Trigger} (first : first? moves = none)
      (idle : ∀ t ∈ triggers, t = .idle) : Stage moves ⟨false, 0⟩ triggers
  | raised {triggers : List Trigger} {i : Nat} (first : first? moves = some i)
      (once : moves.count (.stepTrigger i) = 1)
      (sender : ∀ j, triggers[j]? = some (Trigger.swapped true) ↔ j = i) :
      Stage moves ⟨true, 0⟩ triggers
  | sent {triggers : List Trigger} {i : Nat} (first : first? moves = some i)
      (twice : 2 ≤ moves.count (.stepTrigger i)) (nobody : Trigger.swapped true ∉ triggers) :
      Stage moves ⟨true, 1⟩ triggers

namespace Stage

variable {s s' : Shutdown} {triggers : List Trigger}

/-- Only the steps of triggers count. -/
theorem other (h : Stage moves s triggers) {m : Move} (hm : ∀ i, m ≠ .stepTrigger i) :
    Stage (moves ++ [m]) s triggers := by
  have hfirst : first? (moves ++ [m]) = first? moves := by
    cases m with
    | stepTrigger i => exact absurd rfl (hm i)
    | _ => rw [first?_append]; exact Option.or_none
  have hcount (i : Nat) : (moves ++ [m]).count (.stepTrigger i) = moves.count (.stepTrigger i) := by
    rw [List.count_append, List.count_singleton, if_neg (by simpa using hm i), Nat.add_zero]
  cases h with
  | quiet first idle => exact .quiet (hfirst.trans first) idle
  | raised first once sender => exact .raised (hfirst.trans first) ((hcount _).trans once) sender
  | sent first twice nobody => exact .sent (hfirst.trans first) (by rwa [hcount]) nobody

theorem begun (h : Stage moves s triggers) : Stage moves s (triggers ++ [.idle]) := by
  cases h with
  | quiet first idle => exact .quiet first (by simpa [or_imp, forall_and] using idle)
  | raised first once sender =>
    refine .raised first once fun j => ?_
    rw [← sender, List.getElem?_append]
    grind
  | sent first twice nobody => exact .sent first twice (by simpa using nobody)

theorem count_eq_zero (h : first? moves = none) (i : Nat) : moves.count (.stepTrigger i) = 0 :=
  List.count_eq_zero.mpr fun hmem => nomatch List.findSome?_eq_none_iff.mp h _ hmem

theorem getElem?_set_eq_swapped {i j : Nat} {t : Trigger} (hi : i < triggers.length) :
    (triggers.set i t)[j]? = some (.swapped true) ↔
      (j = i ∧ t = .swapped true) ∨ (j ≠ i ∧ triggers[j]? = some (.swapped true)) := by
  rw [List.getElem?_set]
  grind

theorem step (h : Stage moves s triggers) {i : Nat} {t t' : Trigger} (ht : triggers[i]? = some t)
    (hstep : t.step? s = some (s', t')) :
    Stage (moves ++ [.stepTrigger i]) s' (triggers.set i t') := by
  obtain ⟨hi, -⟩ := List.getElem?_eq_some_iff.mp ht
  have hfirst : first? (moves ++ [.stepTrigger i]) = (first? moves).or (some i) := first?_append ..
  have hcount (j : Nat) : (moves ++ [Move.stepTrigger i]).count (Move.stepTrigger j) =
      moves.count (.stepTrigger j) + if i = j then 1 else 0 := by
    simp [List.count_append, List.count_singleton]
  cases h with
  | quiet first idle =>
    obtain rfl := idle t (List.mem_of_getElem? ht)
    obtain ⟨rfl, rfl⟩ := Prod.mk.inj (Option.some.inj hstep)
    refine .raised (i := i) (by rw [hfirst, first]; rfl) (by simp [hcount, count_eq_zero first])
      fun j => ?_
    have hj : triggers[j]? ≠ some (.swapped true) := fun h => nomatch idle _ (List.mem_of_getElem? h)
    simp [getElem?_set_eq_swapped hi, hj]
  | @raised _ k first once sender =>
    have hk : first? (moves ++ [.stepTrigger i]) = some k := by rw [hfirst, first]; rfl
    by_cases hsends : t = .swapped true
    · subst hsends
      obtain rfl := (sender i).mp ht
      obtain ⟨rfl, rfl⟩ := Prod.mk.inj (Option.some.inj hstep)
      refine .sent hk (by simp [hcount, once]) fun h => ?_
      obtain ⟨j, hj⟩ := List.mem_iff_getElem?.mp h
      simp [getElem?_set_eq_swapped hi, sender] at hj
    · obtain ⟨rfl, ht'⟩ := Trigger.step?_of_triggered rfl hsends hstep
      have hne : i ≠ k := fun h => hsends (Option.some.inj (ht.symm.trans ((sender i).mpr h)))
      refine .raised hk (by simp [hcount, once, hne]) fun j => ?_
      simp only [getElem?_set_eq_swapped hi, sender]
      grind
  | @sent _ k first twice nobody =>
    have hk : first? (moves ++ [.stepTrigger i]) = some k := by rw [hfirst, first]; rfl
    have hsends : t ≠ .swapped true := fun h => nobody (h ▸ List.mem_of_getElem? ht)
    obtain ⟨rfl, ht'⟩ := Trigger.step?_of_triggered rfl hsends hstep
    refine .sent hk (by rw [hcount]; omega) fun hmem => ?_
    exact (List.mem_or_eq_of_mem_set hmem).elim nobody fun heq => ht' heq.symm

theorem sent_le (h : Stage moves s triggers) : s.sent ≤ 1 := by
  cases h <;> decide

theorem sent_eq_zero (h : Stage moves s triggers) (hs : s.triggered = false) : s.sent = 0 := by
  cases h with
  | quiet => rfl
  | raised => rfl
  | sent => contradiction

theorem sent_eq_one_iff (h : Stage moves s triggers) : s.sent = 1 ↔ Sent moves := by
  cases h with
  | quiet first => simp [Sent, first]
  | raised first once => simp [Sent, first, once]
  | sent first twice => simpa using ⟨_, first, twice⟩

theorem exists_mem (h : Stage moves s triggers) (hs : s.triggered = true) :
    ∃ i, .stepTrigger i ∈ moves := by
  have hmem {i : Nat} (first : first? moves = some i) : .stepTrigger i ∈ moves := by
    obtain ⟨m, hm, heq⟩ := List.exists_of_findSome?_eq_some first
    cases m with
    | stepTrigger j => exact Option.some.inj heq ▸ hm
    | _ => contradiction
  cases h with
  | quiet => contradiction
  | raised first => exact ⟨_, hmem first⟩
  | sent first => exact ⟨_, hmem first⟩

theorem sent_of_done (h : Stage moves s triggers) (hne : triggers ≠ [])
    (hdone : ∀ t ∈ triggers, t = .done) : Sent moves := by
  cases h with
  | quiet first idle =>
    obtain ⟨t, ht⟩ := List.exists_mem_of_ne_nil _ hne
    exact nomatch (idle t ht).symm.trans (hdone t ht)
  | raised first once sender =>
    exact nomatch hdone _ (List.mem_of_getElem? ((sender _).mpr rfl))
  | sent first twice => exact ⟨_, first, twice⟩

end Stage

/-- What holds of everyone after a run. -/
structure Follows (moves : List Move) (c : Crowd) : Prop where
  stage : Stage moves c.shutdown c.triggers
  sound : ∀ w ∈ c.waiters, w.Sound c.shutdown
  aged : ∀ i, (c.waiters.getD i .idle).Aged (moves.count (.stepWaiter i))

theorem Follows.start : Follows [] .start where
  stage := .quiet rfl (by simp [Crowd.start])
  sound := by simp [Crowd.start]
  aged _ := .idle

theorem Follows.act (h : Follows moves c) {m : Move} (hact : c.act? m = some c') :
    Follows (moves ++ [m]) c' := by
  have hcount {i : Nat} (hm : m ≠ .stepWaiter i) :
      (moves ++ [m]).count (.stepWaiter i) = moves.count (.stepWaiter i) := by
    simp [List.count_append, hm]
  rcases of_act? hact with ⟨rfl, rfl⟩ | ⟨rfl, rfl⟩ | ⟨i, w, w', rfl, hw, hstep, rfl⟩ |
    ⟨i, t, s, t', rfl, ht, hstep, rfl⟩
  case inl =>
    refine ⟨h.stage.other nofun, ?_, fun i => ?_⟩
    · simpa [or_imp, forall_and, Waiter.Sound] using h.sound
    · rw [hcount nofun]
      have hi := h.aged i
      grind
  case inr.inl =>
    exact ⟨h.stage.begun.other nofun, h.sound, fun i => by rw [hcount nofun]; exact h.aged i⟩
  case inr.inr.inl =>
    have hsound := h.sound w (List.mem_of_getElem? hw)
    refine ⟨h.stage.other nofun, fun v hv => ?_, fun j => ?_⟩
    · rcases List.mem_or_eq_of_mem_set hv with hold | rfl
      · exact h.sound v hold
      · exact hsound.step h.stage.sent_eq_zero hstep
    · obtain ⟨hi, hget⟩ := List.getElem?_eq_some_iff.mp hw
      have hj := h.aged j
      by_cases hij : i = j
      · subst hij
        have hgetD : (c.waiters.set i w').getD i .idle = w' := by simp [hi]
        have hw : c.waiters.getD i .idle = w := by simp [hi, hget]
        rw [hgetD, List.count_append, List.count_singleton_self]
        exact (hw ▸ hj).step hstep
      · rw [hcount (by simpa using hij)]
        simpa [List.getElem?_set, hij] using hj
  case inr.inr.inr =>
    obtain ⟨hsent, htriggered⟩ := Trigger.grows_of_step? hstep
    exact ⟨h.stage.step ht hstep, fun w hw => (h.sound w hw).mono hsent htriggered,
      fun j => by rw [hcount nofun]; exact h.aged j⟩

theorem Follows.of_play? {before after : List Move} (h : Follows before c)
    (hplay : c.play? after = some c') : Follows (before ++ after) c' := by
  induction after generalizing c before with
  | nil =>
    obtain rfl := Option.some.inj hplay
    rwa [List.append_nil]
  | cons m after ih =>
    obtain ⟨next, hact, hrest⟩ := Option.bind_eq_some_iff.mp hplay
    simpa using ih (h.act hact) hrest

/-- However the steps of the waiters and of the triggers mingle, one message is sent at most, by the
trigger that was first; nobody returns before a trigger has set the flag; and behind the message whoever
has not returned can go on, where three steps at most are a whole wait. -/
theorem no_wake_up_is_lost (h : run? moves = some c) :
    c.shutdown.sent ≤ 1 ∧ (c.shutdown.sent = 1 ↔ Sent moves) ∧
    (c.triggers ≠ [] → (∀ t ∈ c.triggers, t = .done) → Sent moves) ∧
    (.returned ∈ c.waiters → ∃ i, .stepTrigger i ∈ moves) ∧
    (Sent moves → ∀ i w, c.waiters[i]? = some w → w ≠ .returned →
      ∃ next, c.act? (.stepWaiter i) = some next) ∧
    ∀ i, moves.count (.stepWaiter i) ≤ 3 := by
  have hfollows : Follows moves c := by simpa using Follows.start.of_play? h
  have hstage := hfollows.stage
  refine ⟨hstage.sent_le, hstage.sent_eq_one_iff, hstage.sent_of_done,
    fun hmem => hstage.exists_mem (hfollows.sound _ hmem), fun hsent i w hw hne => ?_,
    fun i => (hfollows.aged i).le⟩
  have hpos : 0 < c.shutdown.sent := by rw [hstage.sent_eq_one_iff.mpr hsent]; decide
  obtain ⟨w', hstep⟩ := (hfollows.sound w (List.mem_of_getElem? hw)).step?_isSome hpos hne
  exact ⟨{ c with waiters := c.waiters.set i w' }, by simp [act?, hw, hstep]⟩

/-- One waiter looks at the flag just before it is set, another one between the flag and the message. -/
def aroundTheFlag : List Move := [.beginWait, .stepWaiter 0, .stepWaiter 0, .beginTrigger, .beginTrigger,
  .stepTrigger 1, .stepTrigger 0, .beginWait, .stepWaiter 1, .stepWaiter 1, .stepTrigger 0, .stepTrigger 1]

theorem no_wake_up_is_lost_around_the_flag :
    run? aroundTheFlag = some ⟨⟨true, 1⟩, [.waiting ⟨0⟩, .returned], [.done, .done]⟩ ∧
      Sent aroundTheFlag ∧
      ∃ next, act? ⟨⟨true, 1⟩, [.waiting ⟨0⟩, .returned], [.done, .done]⟩ (.stepWaiter 0) = some next := by
  have hrun : run? aroundTheFlag =
      some ⟨⟨true, 1⟩, [.waiting ⟨0⟩, .returned], [.done, .done]⟩ := rfl
  obtain ⟨-, hsent, -, -, hblocked, -⟩ := no_wake_up_is_lost hrun
  exact ⟨hrun, hsent.mp rfl, hblocked (hsent.mp rfl) 0 (.waiting ⟨0⟩) rfl (by decide)⟩

end Crowd
end Gatehouse.Shutdown
