import Gatehouse.Lifecycle.Tasks
import Mathlib.Data.List.Nodup
import Mathlib.Data.List.Perm.Basic

namespace Gatehouse

theorem BackgroundTask.mem_order (task : BackgroundTask) : task ∈ order := by
  cases task <;> decide

theorem BackgroundTask.nodup_order : order.Nodup := by decide

namespace Launch

variable {l l' : Launch} {history later : List Move} {task : BackgroundTask}

def play? (l : Launch) (moves : List Move) : Option Launch := moves.foldlM act? l

def run? (moves : List Move) : Option Launch := start.play? moves

@[simp]
theorem play?_nil : l.play? [] = some l := rfl

theorem play?_cons {m : Move} :
    l.play? (m :: later) = some l' ↔ ∃ l₁, l.act? m = some l₁ ∧ l₁.play? later = some l' := by
  simp [play?, List.foldlM_cons, Option.bind_eq_some_iff]

/-- The task subscribed when both steps of the trigger were done, its message among them. -/
def Misses (moves : List Move) (task : BackgroundTask) : Prop :=
  ∃ before after, moves = before ++ .subscribe :: after ∧
    2 ≤ before.count .trigger ∧ BackgroundTask.order[before.count .subscribe]? = some task

/-- No one can do anything any more. -/
def AtRest (l : Launch) : Prop := ∀ m, l.act? m = none

theorem misses_snoc {m : Move} :
    Misses (history ++ [m]) task ↔ Misses history task ∨ m = .subscribe ∧
      2 ≤ history.count .trigger ∧
        BackgroundTask.order[history.count .subscribe]? = some task := by
  constructor
  · rintro ⟨before, after, hmoves, hsent, htask⟩
    rcases List.eq_nil_or_concat after with rfl | ⟨after', last, rfl⟩
    · obtain ⟨rfl, hm⟩ := List.append_inj' hmoves rfl
      exact .inr ⟨List.cons.inj hm |>.1, hsent, htask⟩
    · have hparts : history ++ [m] = (before ++ .subscribe :: after') ++ [last] := by
        simpa using hmoves
      obtain ⟨rfl, -⟩ := List.append_inj' hparts rfl
      exact .inl ⟨before, after', rfl, hsent, htask⟩
  · rintro (⟨before, after, rfl, hsent, htask⟩ | ⟨rfl, hsent, htask⟩)
    · exact ⟨before, after ++ [m], by simp, hsent, htask⟩
    · exact ⟨history, [], rfl, hsent, htask⟩

theorem misses_snoc_of_ne {m : Move} (hm : m ≠ .subscribe) :
    Misses (history ++ [m]) task ↔ Misses history task := by
  simp [misses_snoc, hm]

theorem not_misses_of_mem_drop
    (h : task ∈ BackgroundTask.order.drop (history.count .subscribe)) :
    ¬ Misses history task := by
  rintro ⟨before, after, rfl, -, htask⟩
  obtain ⟨i, hi, rfl⟩ := List.mem_drop_iff_getElem.mp h
  obtain ⟨hj, heq⟩ := List.getElem?_eq_some_iff.mp htask
  have hindex := (List.Nodup.getElem_inj_iff BackgroundTask.nodup_order).mp heq
  simp at hindex
  omega

/-- How far the trigger is, what it has made of the signal, and after how many of its steps. -/
inductive Phase : Shutdown.Trigger → Shutdown → Nat → Prop
  | idle : Phase .idle ⟨false, 0⟩ 0
  | raised : Phase (.swapped true) ⟨true, 0⟩ 1
  | sent : Phase .done ⟨true, 1⟩ 2

theorem Phase.sent_le {t : Shutdown.Trigger} {s : Shutdown} {n : Nat} (h : Phase t s n) :
    s.sent ≤ 1 := by
  cases h <;> decide

theorem Phase.two_le_iff {t : Shutdown.Trigger} {s : Shutdown} {n : Nat} (h : Phase t s n) :
    2 ≤ n ↔ s.sent = 1 := by
  cases h <;> decide

theorem Phase.of_done {s : Shutdown} {n : Nat} (h : Phase .done s n) : s = ⟨true, 1⟩ := by
  cases h
  rfl

theorem Phase.step {t t' : Shutdown.Trigger} {s s' : Shutdown} {n : Nat} (h : Phase t s n)
    (hstep : t.step? s = some (s', t')) : Phase t' s' (n + 1) := by
  cases h <;> cases hstep
  · exact .raised
  · exact .sent

/-- What can happen to a launch in one move. -/
theorem of_act? {m : Move} (h : l.act? m = some l') :
    (∃ task rest, m = .subscribe ∧ l.pending = task :: rest ∧
      l' = { l with pending := rest,
                    running := l.running ++ [(task, l.shutdown.subscribe)] }) ∨
    (∃ s t, m = .trigger ∧ l.trigger.step? l.shutdown = some (s, t) ∧
      l' = { l with shutdown := s, trigger := t }) ∨
    (∃ i, ∃ p : BackgroundTask × Receiver, m = .receive i ∧ l.running[i]? = some p ∧
      l.shutdown.hasMessage p.2 = true ∧
      l' = { l with running := l.running.eraseIdx i, ended := l.ended ++ [p.1] }) := by
  cases m with
  | subscribe =>
    simp only [act?] at h
    split at h
    · next task rest hp => exact .inl ⟨task, rest, rfl, hp, (Option.some.inj h).symm⟩
    · cases h
  | trigger =>
    obtain ⟨⟨s, t⟩, hstep, heq⟩ := Option.bind_eq_some_iff.mp h
    exact .inr (.inl ⟨s, t, rfl, hstep, (Option.some.inj heq).symm⟩)
  | receive i =>
    obtain ⟨p, hp, h⟩ := Option.bind_eq_some_iff.mp h
    obtain ⟨r, hr, heq⟩ := Option.bind_eq_some_iff.mp h
    have hmessage : l.shutdown.hasMessage p.2 = true := by
      by_contra hno
      simp [Shutdown.receive?, hno] at hr
    exact .inr (.inr ⟨i, p, rfl, hp, hmessage, (Option.some.inj heq).symm⟩)

/-- A launch is what its history says. -/
structure Follows (history : List Move) (l : Launch) : Prop where
  pending : l.pending = BackgroundTask.order.drop (history.count .subscribe)
  phase : Phase l.trigger l.shutdown (history.count .trigger)
  /-- Every task is in one place. -/
  tasks : (l.pending ++ l.running.map Prod.fst ++ l.ended).Perm BackgroundTask.order
  /-- A task that runs misses the message if and only if it stands behind it. -/
  place : ∀ p ∈ l.running, p.2.position ≤ 1 ∧ (Misses history p.1 ↔ p.2.position = 1)
  ended : ∀ task ∈ l.ended, ¬ Misses history task

namespace Follows

theorem start : Follows [] Launch.start where
  pending := rfl
  phase := .idle
  tasks := by simp [Launch.start]
  place := by simp [Launch.start]
  ended := by simp [Launch.start]

theorem not_mem_of_pending {rest : List BackgroundTask} (h : Follows history l)
    (hp : l.pending = task :: rest) : task ∉ l.running.map Prod.fst ∧ task ∉ l.ended := by
  have hnodup := h.tasks.nodup_iff.mpr BackgroundTask.nodup_order
  rw [hp, List.append_assoc, List.cons_append, List.nodup_cons] at hnodup
  simpa only [List.mem_append, not_or] using (not_or.mp (List.mem_append.not.mp hnodup.1)).2

theorem subscribe {rest : List BackgroundTask} (h : Follows history l)
    (hp : l.pending = task :: rest) :
    Follows (history ++ [.subscribe])
      { l with pending := rest, running := l.running ++ [(task, l.shutdown.subscribe)] } := by
  have hdrop := h.pending.symm.trans hp
  have hnext : BackgroundTask.order[history.count .subscribe]? = some task := by
    rw [← List.head?_drop, hdrop]
    rfl
  have hothers : ∀ other, other ≠ task →
      (Misses (history ++ [.subscribe]) other ↔ Misses history other) := by
    intro other hne
    simp [misses_snoc, hnext, hne.symm]
  obtain ⟨hrunning, hended⟩ := h.not_mem_of_pending hp
  refine ⟨?_, ?_, ?_, ?_, ?_⟩
  · simp [List.count_append, ← List.drop_drop, hdrop]
  · simpa using h.phase
  · have hmoved : (rest ++ l.running.map Prod.fst ++ task :: l.ended).Perm
        (task :: (rest ++ l.running.map Prod.fst ++ l.ended)) := List.perm_middle
    refine .trans ?_ (hp ▸ h.tasks)
    simpa [List.append_assoc] using hmoved
  · intro p hmem
    rcases List.mem_append.mp hmem with hmem | hmem
    · rw [hothers p.1 (fun heq => hrunning (heq ▸ List.mem_map_of_mem hmem))]
      exact h.place p hmem
    · obtain rfl := List.mem_singleton.mp hmem
      have hbefore : ¬ Misses history task :=
        not_misses_of_mem_drop (hdrop ▸ List.mem_cons_self)
      refine ⟨h.phase.sent_le, ?_⟩
      simp [misses_snoc, hbefore, hnext, h.phase.two_le_iff, Shutdown.subscribe]
  · intro other hmem
    rw [hothers other (fun heq => hended (heq ▸ hmem))]
    exact h.ended other hmem

theorem trigger {s : Shutdown} {t : Shutdown.Trigger} (h : Follows history l)
    (hstep : l.trigger.step? l.shutdown = some (s, t)) :
    Follows (history ++ [.trigger]) { l with shutdown := s, trigger := t } where
  pending := by simpa using h.pending
  phase := by simpa using h.phase.step hstep
  tasks := h.tasks
  place := by simpa [misses_snoc] using h.place
  ended := by simpa [misses_snoc] using h.ended

open scoped List in
/-- Where the tasks are, when the one at an index has gone from those that run to those that
ended. -/
theorem perm_of_received {pending ended : List BackgroundTask}
    {running : List (BackgroundTask × Receiver)} {i : Nat} (hi : i < running.length) :
    pending ++ (running.eraseIdx i).map Prod.fst ++ (ended ++ [running[i].1]) ~
      pending ++ running.map Prod.fst ++ ended := by
  have herased : running[i].1 :: (running.eraseIdx i).map Prod.fst ~ running.map Prod.fst :=
    (List.getElem_cons_eraseIdx_perm hi).map Prod.fst
  calc
    pending ++ (running.eraseIdx i).map Prod.fst ++ (ended ++ [running[i].1])
    _ ~ running[i].1 :: (pending ++ (running.eraseIdx i).map Prod.fst ++ ended) := by
      rw [← List.append_assoc]
      exact List.perm_append_singleton _ _
    _ ~ pending ++ running[i].1 :: (running.eraseIdx i).map Prod.fst ++ ended := by
      simpa only [List.append_assoc, List.cons_append] using List.perm_middle.symm
    _ ~ pending ++ running.map Prod.fst ++ ended := (herased.append_left _).append_right _

theorem receive {i : Nat} {p : BackgroundTask × Receiver} (h : Follows history l)
    (hi : l.running[i]? = some p) (hmessage : l.shutdown.hasMessage p.2 = true) :
    Follows (history ++ [.receive i])
      { l with running := l.running.eraseIdx i, ended := l.ended ++ [p.1] } := by
  obtain ⟨hlt, rfl⟩ := List.getElem?_eq_some_iff.mp hi
  refine ⟨?_, ?_, ?_, ?_, ?_⟩
  · simpa using h.pending
  · simpa using h.phase
  · exact (perm_of_received hlt).trans h.tasks
  · intro p hmem
    rw [misses_snoc_of_ne (by simp)]
    exact h.place p (List.mem_of_mem_eraseIdx hmem)
  · intro task hmem
    rw [misses_snoc_of_ne (by simp)]
    rcases List.mem_append.mp hmem with hmem | hmem
    · exact h.ended task hmem
    · obtain rfl := List.mem_singleton.mp hmem
      -- a message is there, so the receiver stands in front of it
      have hbehind : l.running[i].2.position < l.shutdown.sent := by
        simpa [Shutdown.hasMessage] using hmessage
      have hsent := h.phase.sent_le
      rw [(h.place _ (List.getElem_mem hlt)).2]
      omega

theorem act {m : Move} (h : Follows history l) (hact : l.act? m = some l') :
    Follows (history ++ [m]) l' := by
  rcases of_act? hact with ⟨task, rest, rfl, hp, rfl⟩ | ⟨s, t, rfl, hstep, rfl⟩ |
    ⟨i, p, rfl, hi, hmessage, rfl⟩
  · exact h.subscribe hp
  · exact h.trigger hstep
  · exact h.receive hi hmessage

theorem play (h : Follows history l) (hplay : l.play? later = some l') :
    Follows (history ++ later) l' := by
  induction later generalizing history l with
  | nil =>
    obtain rfl := Option.some.inj hplay
    simpa using h
  | cons m later ih =>
    obtain ⟨l₁, hact, hrest⟩ := play?_cons.mp hplay
    simpa using ih (h.act hact) hrest

theorem of_run? (h : run? history = some l) : Follows history l := start.play h

/-- Behind the message, a task waits in vain if and only if it misses it. -/
theorem hasMessage_eq_false_iff (h : Follows history l) (hdone : l.trigger = .done)
    {p : BackgroundTask × Receiver} (hp : p ∈ l.running) :
    l.shutdown.hasMessage p.2 = false ↔ Misses history p.1 := by
  obtain ⟨hle, hiff⟩ := h.place p hp
  have hsent : l.shutdown.sent = 1 := by
    have hphase := h.phase
    rw [hdone] at hphase
    exact congrArg Shutdown.sent hphase.of_done
  rw [hiff]
  simp only [Shutdown.hasMessage, hsent, decide_eq_false_iff_not]
  omega

theorem mem_running_or_mem_ended (h : Follows history l) (hstarted : l.pending = [])
    (task : BackgroundTask) : (∃ p ∈ l.running, p.1 = task) ∨ task ∈ l.ended := by
  have hmem := h.tasks.mem_iff.mpr task.mem_order
  simpa [hstarted] using hmem

theorem isStuck_iff (h : Follows history l) (hstarted : l.pending = [])
    (hdone : l.trigger = .done) : l.IsStuck ↔ ∃ task, Misses history task := by
  constructor
  · rintro ⟨-, -, p, hp, hwaits⟩
    exact ⟨p.1, (h.hasMessage_eq_false_iff hdone hp).mp hwaits⟩
  · rintro ⟨task, hmisses⟩
    rcases h.mem_running_or_mem_ended hstarted task with ⟨p, hp, rfl⟩ | hended
    · exact ⟨hstarted, hdone, p, hp, (h.hasMessage_eq_false_iff hdone hp).mpr hmisses⟩
    · exact absurd hmisses (h.ended task hended)

/-- When nothing is left to be done, exactly the tasks that miss the message have not ended. -/
theorem mem_ended_iff (h : Follows history l) (hstarted : l.pending = [])
    (hdone : l.trigger = .done) (hrest : l.AtRest) : task ∈ l.ended ↔ ¬ Misses history task := by
  refine ⟨h.ended task, fun hreached => ?_⟩
  rcases h.mem_running_or_mem_ended hstarted task with ⟨p, hp, rfl⟩ | hended
  · obtain ⟨i, hi, rfl⟩ := List.getElem_of_mem hp
    have hmessage : l.shutdown.hasMessage l.running[i].2 = true := by
      simpa using (h.hasMessage_eq_false_iff hdone hp).not.mpr hreached
    have hnone := hrest (.receive i)
    simp [act?, hi, Shutdown.receive?, hmessage] at hnone
  · exact hended

end Follows

/-- Once the tasks have subscribed and the trigger is done, a move is one task that ends. -/
theorem of_act?_settled {m : Move} (hstarted : l.pending = []) (hdone : l.trigger = .done)
    (h : l.act? m = some l') : m ≠ .subscribe ∧ l'.pending = [] ∧ l'.trigger = .done ∧
      l'.running.length + 1 = l.running.length := by
  rcases of_act? h with ⟨task, rest, rfl, hp, rfl⟩ | ⟨s, t, rfl, hstep, rfl⟩ |
    ⟨i, p, rfl, hi, -, rfl⟩
  · rw [hstarted] at hp
    cases hp
  · rw [hdone] at hstep
    cases hstep
  · obtain ⟨hlt, -⟩ := List.getElem?_eq_some_iff.mp hi
    refine ⟨by simp, hstarted, hdone, ?_⟩
    rw [List.length_eraseIdx_of_lt hlt]
    omega

theorem of_play?_settled (hstarted : l.pending = []) (hdone : l.trigger = .done)
    (h : l.play? later = some l') : l'.pending = [] ∧ l'.trigger = .done ∧
      later.length + l'.running.length = l.running.length ∧
      ∀ history task, Misses (history ++ later) task ↔ Misses history task := by
  induction later generalizing l with
  | nil =>
    obtain rfl := Option.some.inj h
    simp [hstarted, hdone]
  | cons m later ih =>
    obtain ⟨l₁, hact, hrest⟩ := play?_cons.mp h
    obtain ⟨hne, hstarted₁, hdone₁, hlength₁⟩ := of_act?_settled hstarted hdone hact
    obtain ⟨hstarted', hdone', hlength, hmisses⟩ := ih hstarted₁ hdone₁ hrest
    refine ⟨hstarted', hdone', ?_, ?_⟩
    · rw [List.length_cons]
      omega
    · intro history task
      rw [List.append_cons, hmisses, misses_snoc_of_ne hne]

/-- A gate whose tasks have all subscribed and that was triggered is stuck exactly when a task
subscribed behind the message. From there on the tasks end one after the other, and when no one can
do anything any more exactly those have not ended that subscribed behind the message. -/
theorem stuck_iff_subscribed_late {moves : List Move} {l : Launch} (h : run? moves = some l)
    (hstarted : l.pending = []) (hdone : l.trigger = .done) :
    (l.IsStuck ↔ ∃ task, Misses moves task) ∧
      ∀ later l', l.play? later = some l' → later.length ≤ l.running.length ∧
        (l'.IsStuck ↔ l.IsStuck) ∧
        (l'.AtRest → ∀ task, task ∈ l'.ended ↔ ¬ Misses moves task) := by
  have hfollows := Follows.of_run? h
  refine ⟨hfollows.isStuck_iff hstarted hdone, fun later l' hplay => ?_⟩
  obtain ⟨hstarted', hdone', hlength, hmisses⟩ := of_play?_settled hstarted hdone hplay
  have hfollows' := hfollows.play hplay
  refine ⟨by omega, ?_, fun hrest task => ?_⟩
  · rw [hfollows'.isStuck_iff hstarted' hdone', hfollows.isStuck_iff hstarted hdone]
    exact exists_congr (hmisses moves)
  · rw [hfollows'.mem_ended_iff hstarted' hdone' hrest, hmisses]

/-- The key rotation subscribed in front of the message, the accept loop behind it. -/
def overtaken : Launch :=
  ⟨⟨true, 1⟩, .done, [], [(.rotation, ⟨0⟩), (.acceptLoop, ⟨1⟩)], []⟩

theorem overtaken_stuck : run? [.subscribe, .trigger, .trigger, .subscribe] = some overtaken ∧
    overtaken.pending = [] ∧ overtaken.trigger = .done ∧ overtaken.IsStuck ∧
    (overtaken.IsStuck ↔ ∃ task, Misses [.subscribe, .trigger, .trigger, .subscribe] task) ∧
      ∀ later l', overtaken.play? later = some l' → later.length ≤ overtaken.running.length ∧
        (l'.IsStuck ↔ overtaken.IsStuck) ∧
        (l'.AtRest → ∀ task, task ∈ l'.ended ↔
          ¬ Misses [.subscribe, .trigger, .trigger, .subscribe] task) :=
  ⟨rfl, rfl, rfl, ⟨rfl, rfl, (.acceptLoop, ⟨1⟩), by decide, rfl⟩,
    stuck_iff_subscribed_late rfl rfl rfl⟩

/-- A trigger in front of both subscriptions leaves both tasks waiting, and no one can do anything
any more. -/
theorem early_trigger_strands :
    ∃ l, run? [.trigger, .trigger, .subscribe, .subscribe] = some l ∧ l.IsStuck ∧ l.AtRest ∧
      ∀ task, task ∉ l.ended := by
  refine ⟨⟨⟨true, 1⟩, .done, [], [(.rotation, ⟨1⟩), (.acceptLoop, ⟨1⟩)], []⟩, rfl, ?_, ?_, ?_⟩
  · exact ⟨rfl, rfl, (.rotation, ⟨1⟩), by decide, rfl⟩
  · rintro (_ | _ | _ | _ | _) <;> rfl
  · simp

end Launch
end Gatehouse
