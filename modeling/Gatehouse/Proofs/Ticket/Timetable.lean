import Gatehouse.Proofs.Ticket.Reload
import Gatehouse.Proofs.Timed
import Gatehouse.Ticket.Schedule

namespace Gatehouse.Ticket
open Timed

/-- The first multiples of an interval. -/
def timetable (interval n : Nat) : List Nat := (List.range n).map fun k => (k + 1) * interval

theorem timetable_succ (interval n : Nat) :
    timetable interval (n + 1) = timetable interval n ++ [(n + 1) * interval] := by
  rw [timetable, List.range_succ, List.map_append]
  rfl

namespace Shift

namespace Move

instance : Timed Move where
  time
    | .elapse time => time
    | _ => 0

def signals : Move → Bool
  | .signal => true
  | _ => false

def leaves : Move → Bool
  | .leave => true
  | _ => false

def fails? : Move → Option (Nat → Option Storage.Error)
  | .rotate fails => some fails
  | _ => none

def rotates (m : Move) : Bool := m.fails?.isSome

end Move

def play? (s : Shift) (moves : List Move) : Option Shift := moves.foldlM act? s

/-- When the ring is called to rotate. -/
def calledAt (moves : List Move) : List Nat := instants Move.rotates 0 moves

/-- When the task ends. -/
def leftAt (moves : List Move) : List Nat := instants Move.leaves 0 moves

/-- The calls for a rotation. -/
def calls (fresh : Nat → Key) (moves : List Move) : List Call :=
  (moves.filterMap Move.fails?).zipIdx.map fun (fails, k) => ⟨fails, fresh k⟩

/-- Nobody has anything to do before time passes. -/
def Settled (s : Shift) : Prop := (∀ fails, s.act? (.rotate fails) = none) ∧ s.act? .leave = none

section Calls
variable (fresh : Nat → Key) (moves : List Move)

theorem calls_append_of_none {m : Move} (h : m.fails? = none) :
    calls fresh (moves ++ [m]) = calls fresh moves := by
  rw [calls, List.filterMap_append, List.filterMap_cons_none h, List.filterMap_nil, List.append_nil]
  rfl

theorem calls_append_rotate (fails : Nat → Option Storage.Error) :
    calls fresh (moves ++ [.rotate fails]) =
      calls fresh moves ++ [⟨fails, fresh (calls fresh moves).length⟩] := by
  simp [calls, Move.fails?, List.zipIdx_append]

end Calls

theorem play?_append (s : Shift) (moves more : List Move) :
    s.play? (moves ++ more) = (s.play? moves).bind (·.play? more) := List.foldlM_append ..

/-- All that a move can be. -/
theorem of_act? {s s' : Shift} {m : Move} (h : s.act? m = some s') :
    (∃ time, m = .elapse time ∧
      (s.task.state = .running → s.signalled = false ∧ s.task.now + time ≤ s.task.due) ∧
      s' = { s with task := { s.task with now := s.task.now + time } }) ∨
    (m = .signal ∧ s' = { s with signalled := true }) ∨
    (∃ fails, m = .rotate fails ∧ s.task.state = .running ∧ s.task.due ≤ s.task.now ∧
      s' = { s with task := s.task.rotateNow fails }) ∨
    (m = .leave ∧ s.task.state = .running ∧ s.signalled = true ∧
      s' = { s with task := { s.task with state := .ended } }) := by
  cases m with
  | elapse time =>
    refine .inl ⟨time, rfl, ?_⟩
    rw [act?] at h
    split at h
    next => contradiction
    next hfree =>
      refine ⟨fun hrunning => ?_, (Option.some.inj h).symm⟩
      rw [not_and, not_or, Nat.not_lt, Bool.not_eq_true] at hfree
      exact hfree hrunning
  | signal => exact .inr (.inl ⟨rfl, (Option.some.inj h).symm⟩)
  | rotate fails =>
    rw [act?] at h
    split at h
    next hdue => exact .inr (.inr (.inl ⟨fails, rfl, hdue.1, hdue.2, (Option.some.inj h).symm⟩))
    next => contradiction
  | leave =>
    rw [act?] at h
    split at h
    next hsignal =>
      rw [RotationTask.stop, if_pos hsignal.1] at h
      exact .inr (.inr (.inr ⟨rfl, hsignal.1, hsignal.2, (Option.some.inj h).symm⟩))
    next => contradiction

/-- How a task stands that was not told to stop. -/
structure OnTime (keeper : Keeper) (fresh : Nat → Key) (interval : Nat) (moves : List Move)
    (s : Shift) : Prop where
  unsignalled : s.signalled = false
  running : s.task.state = .running
  interval_eq : s.task.interval = interval
  fresh_eq : s.task.fresh = fresh
  now : s.task.now = clock moves
  rotations : s.task.rotations = (calls fresh moves).length
  keeper_eq : s.task.keeper = keeper.after (calls fresh moves)
  called : calledAt moves = timetable interval (calls fresh moves).length
  left : leftAt moves = []
  due : s.task.due = ((calls fresh moves).length + 1) * interval
  reached : (calls fresh moves).length * interval ≤ s.task.now
  within : s.task.now ≤ s.task.due

section OnTime
variable {keeper : Keeper} {fresh : Nat → Key} {interval : Nat} {moves more : List Move}
  {s s' : Shift} {m : Move}

theorem onTime_start (h : 0 < interval) :
    OnTime keeper fresh interval [] (start keeper fresh interval) where
  unsignalled := rfl
  running := if_neg (Nat.ne_of_gt h)
  interval_eq := rfl
  fresh_eq := rfl
  now := rfl
  rotations := rfl
  keeper_eq := rfl
  called := rfl
  left := rfl
  due := (Nat.one_mul interval).symm
  reached := Nat.le_of_eq (Nat.zero_mul interval)
  within := Nat.zero_le _

theorem OnTime.elapse (h : OnTime keeper fresh interval moves s) {time : Nat}
    (hdue : s.task.now + time ≤ s.task.due) : OnTime keeper fresh interval (moves ++ [.elapse time])
      { s with task := { s.task with now := s.task.now + time } } := by
  have hcalls : calls fresh (moves ++ [.elapse time]) = calls fresh moves :=
    calls_append_of_none fresh moves rfl
  have hcalled : calledAt (moves ++ [.elapse time]) = calledAt moves := instants_append_of_none rfl
  have hleft : leftAt (moves ++ [.elapse time]) = leftAt moves := instants_append_of_none rfl
  have hclock : clock (moves ++ [.elapse time]) = clock moves + time := by
    rw [clock_append, clock_singleton]
    rfl
  refine ⟨h.unsignalled, h.running, h.interval_eq, h.fresh_eq, ?_, ?_, ?_, ?_, ?_, ?_, ?_, hdue⟩
  · rw [hclock, h.now]
  · rw [hcalls, h.rotations]
  · rw [hcalls, h.keeper_eq]
  · rw [hcalled, hcalls, h.called]
  · rw [hleft, h.left]
  · rw [hcalls, h.due]
  · rw [hcalls]
    exact Nat.le_trans h.reached (Nat.le_add_right _ _)

/-- The clock has not gone past the timer, so a rotation comes at the instant for which it was due. -/
theorem OnTime.rotate (h : OnTime keeper fresh interval moves s)
    (fails : Nat → Option Storage.Error) (hdue : s.task.due ≤ s.task.now) :
    OnTime keeper fresh interval (moves ++ [.rotate fails])
      { s with task := s.task.rotateNow fails } := by
  have hnow : s.task.now = s.task.due := Nat.le_antisymm h.within hdue
  have hcalls := calls_append_rotate fresh moves fails
  have hlength : (calls fresh (moves ++ [.rotate fails])).length = (calls fresh moves).length + 1 := by
    rw [hcalls, List.length_append, List.length_singleton]
  have hclock : clock (moves ++ [.rotate fails]) = clock moves := by
    rw [clock_append, clock_singleton]
    rfl
  have hcalled : calledAt (moves ++ [.rotate fails]) = calledAt moves ++ [s.task.due] := by
    rw [calledAt, instants_append_of_kind rfl, Nat.zero_add, ← h.now, hnow]
    rfl
  have hleft : leftAt (moves ++ [.rotate fails]) = leftAt moves := instants_append_of_none rfl
  have hnext : s.task.dueNext = s.task.due + interval := by
    rw [RotationTask.dueNext, if_neg (by omega), h.interval_eq]
  have hkeeper : (s.task.rotateNow fails).keeper =
      s.task.keeper.after [⟨fails, fresh (calls fresh moves).length⟩] := by
    rw [RotationTask.rotateNow, h.fresh_eq, h.rotations]
    rfl
  refine ⟨h.unsignalled, h.running, h.interval_eq, h.fresh_eq, ?_, ?_, ?_, ?_, ?_, ?_, ?_, ?_⟩
  · rw [hclock]
    exact h.now
  · rw [hlength, ← h.rotations]
    rfl
  · rw [hcalls, Keeper.after_append, ← h.keeper_eq]
    exact hkeeper
  · rw [hcalled, hlength, timetable_succ, h.called, h.due]
  · rw [hleft, h.left]
  · rw [hlength, Nat.succ_mul, ← h.due]
    exact hnext
  · rw [hlength, ← h.due]
    exact hdue
  · change s.task.now ≤ s.task.dueNext
    rw [hnext, hnow]
    exact Nat.le_add_right _ _

theorem OnTime.act (h : OnTime keeper fresh interval moves s) (hm : m.signals = false)
    (hact : s.act? m = some s') : OnTime keeper fresh interval (moves ++ [m]) s' := by
  rcases of_act? hact with ⟨time, rfl, hfree, rfl⟩ | ⟨rfl, -⟩ | ⟨fails, rfl, -, hdue, rfl⟩ |
    ⟨rfl, -, hsignal, -⟩
  · exact h.elapse (hfree h.running).2
  · contradiction
  · exact h.rotate fails hdue
  · rw [h.unsignalled] at hsignal
    contradiction

theorem OnTime.play (h : OnTime keeper fresh interval moves s) (hmore : ∀ m ∈ more, m.signals = false)
    (hplay : s.play? more = some s') : OnTime keeper fresh interval (moves ++ more) s' := by
  induction more generalizing s moves with
  | nil =>
    obtain rfl := Option.some.inj hplay
    rwa [List.append_nil]
  | cons m rest ih =>
    obtain ⟨next, hact, hrest⟩ := Option.bind_eq_some_iff.mp hplay
    have hnext := h.act (hmore m List.mem_cons_self) hact
    simpa using ih hnext (fun m hm => hmore m (List.mem_cons_of_mem _ hm)) hrest

theorem OnTime.settled_iff (h : OnTime keeper fresh interval moves s) :
    s.Settled ↔ s.task.now < s.task.due := by
  simp [Settled, act?, h.running, h.unsignalled]

theorem OnTime.length_of_settled (h : OnTime keeper fresh interval moves s) (hs : s.Settled) :
    (calls fresh moves).length = clock moves / interval := by
  have hbefore := h.settled_iff.mp hs
  have hreached := h.reached
  rw [h.due, h.now] at hbefore
  rw [h.now] at hreached
  exact (Nat.div_eq_of_lt_le hreached hbefore).symm

/-- A task that has something to do holds the clock. -/
theorem OnTime.holds (h : OnTime keeper fresh interval moves s) (hs : ¬ s.Settled) {time : Nat}
    (ht : 0 < time) : s.act? (.elapse time) = none := by
  rw [h.settled_iff] at hs
  exact if_pos ⟨h.running, .inr (by omega)⟩

/-- Between two rotations there is nothing to be done. -/
theorem OnTime.settled_of_not_dvd (h : OnTime keeper fresh interval moves s)
    (hbetween : ¬ interval ∣ clock moves) : s.Settled := by
  refine h.settled_iff.mpr (Nat.lt_of_le_of_ne h.within fun heq => hbetween ?_)
  rw [← h.now, heq, h.due]
  exact Nat.dvd_mul_left ..

/-- A run without a signal that follows the timer as the task does by itself. -/
theorem exists_course (task : RotationTask) (instant : Nat) (hrunning : task.state = .running)
    (hinterval : 0 < task.interval) (hdue : task.now ≤ task.due) (hnow : task.now ≤ instant) :
    ∃ course, (∀ m ∈ course, m.signals = false) ∧ task.now + clock course = instant ∧
      play? ⟨task, false⟩ course = some ⟨task.advanceTo instant, false⟩ := by
  fun_induction RotationTask.advanceTo task instant with
  | case1 task hnext ih =>
    obtain ⟨course, hcourse, hclock, hplay⟩ := ih hnext.1 hnext.2.1
      (task.due_tick ▸ Nat.le_add_right task.due task.interval) hnext.2.2
    have helapse : act? ⟨task, false⟩ (.elapse (task.due - task.now)) =
        some ⟨{ task with now := task.due }, false⟩ := by
      have hreach : task.now + (task.due - task.now) = task.due := Nat.add_sub_cancel' hdue
      simp [act?, hreach]
    have hrotate : act? ⟨{ task with now := task.due }, false⟩ (.rotate Storage.noFailure) =
        some ⟨task.tick, false⟩ := if_pos ⟨hnext.1, Nat.le_refl _⟩
    refine ⟨.elapse (task.due - task.now) :: .rotate Storage.noFailure :: course, ?_, ?_, ?_⟩
    · simpa [Move.signals] using hcourse
    · have htick : task.tick.now = task.due := rfl
      have hsum : clock (.elapse (task.due - task.now) :: .rotate Storage.noFailure :: course) =
          (task.due - task.now) + clock course := by simp [clock, time]
      omega
    · rw [play?, List.foldlM_cons, helapse]
      change (act? _ _).bind _ = _
      rw [hrotate]
      exact hplay
  | case2 task hlast =>
    have hearly : instant < task.due := by
      rw [hrunning] at hlast
      simpa [hinterval] using hlast
    have hreach : task.now + (instant - task.now) = instant := Nat.add_sub_cancel' hnow
    refine ⟨[.elapse (instant - task.now)], by simp [Move.signals], ?_, ?_⟩
    · rw [clock_singleton]
      exact hreach
    · have hmax : max task.now instant = instant := Nat.max_eq_right hnow
      simp [play?, act?, hreach, hmax, Nat.not_lt.mpr (Nat.le_of_lt hearly)]

end OnTime

section Told
variable {s s' : Shift} {later : List Move}

/-- An ended task leaves the ring alone. -/
theorem play_of_ended (hended : s.task.state = .ended) (hplay : s.play? later = some s') :
    s'.task.state = .ended ∧ s'.task.keeper = s.task.keeper ∧
      ∀ m ∈ later, m.rotates = false ∧ m.leaves = false := by
  induction later generalizing s with
  | nil =>
    obtain rfl := Option.some.inj hplay
    exact ⟨hended, rfl, List.forall_mem_nil _⟩
  | cons m rest ih =>
    obtain ⟨next, hact, hrest⟩ := Option.bind_eq_some_iff.mp hplay
    rcases of_act? hact with ⟨time, rfl, -, rfl⟩ | ⟨rfl, rfl⟩ | ⟨_, -, hrunning, -⟩ |
      ⟨-, hrunning, -⟩
    · obtain ⟨hstate, hkeeper, hmoves⟩ :=
        ih (s := { s with task := { s.task with now := s.task.now + time } }) hended hrest
      exact ⟨hstate, hkeeper, List.forall_mem_cons.mpr ⟨⟨rfl, rfl⟩, hmoves⟩⟩
    · obtain ⟨hstate, hkeeper, hmoves⟩ := ih (s := { s with signalled := true }) hended hrest
      exact ⟨hstate, hkeeper, List.forall_mem_cons.mpr ⟨⟨rfl, rfl⟩, hmoves⟩⟩
    · rw [hended] at hrunning
      contradiction
    · rw [hended] at hrunning
      contradiction

/-- A task that was told to stop and whose timer has not run out has only its end before it. -/
theorem play_of_told (hrunning : s.task.state = .running) (hsignal : s.signalled = true)
    (hdue : s.task.now < s.task.due) (hplay : s.play? later = some s') :
    (∀ m ∈ later, m.rotates = false) ∧ s'.task.keeper = s.task.keeper ∧
      (s' = s ∧ instants Move.leaves s.task.now later = [] ∨
        s'.task.state = .ended ∧ instants Move.leaves s.task.now later = [s.task.now]) := by
  induction later with
  | nil =>
    obtain rfl := Option.some.inj hplay
    exact ⟨List.forall_mem_nil _, rfl, .inl ⟨rfl, rfl⟩⟩
  | cons m rest ih =>
    obtain ⟨next, hact, hrest⟩ := Option.bind_eq_some_iff.mp hplay
    rcases of_act? hact with ⟨time, -, hfree, -⟩ | ⟨rfl, rfl⟩ | ⟨_, -, -, hlate, -⟩ |
      ⟨rfl, -, -, rfl⟩
    · rw [hsignal] at hfree
      exact absurd (hfree hrunning).1 Bool.noConfusion
    · have hsame : { s with signalled := true } = s := by rw [← hsignal]
      rw [hsame] at hrest
      obtain ⟨hmoves, hkeeper, hend⟩ := ih hrest
      exact ⟨List.forall_mem_cons.mpr ⟨rfl, hmoves⟩, hkeeper, hend⟩
    · exact absurd hlate (Nat.not_le.mpr hdue)
    · obtain ⟨hstate, hkeeper, hmoves⟩ :=
        play_of_ended (s := { s with task := { s.task with state := .ended } }) rfl hrest
      have hnone : instants Move.leaves s.task.now rest = [] :=
        instants_eq_nil fun m hm => (hmoves m hm).2
      refine ⟨List.forall_mem_cons.mpr ⟨rfl, fun m hm => (hmoves m hm).1⟩, hkeeper,
        .inr ⟨hstate, ?_⟩⟩
      change s.task.now :: instants Move.leaves s.task.now rest = _
      rw [hnone]

/-- The end of a task that was on time when it was told to stop. -/
theorem OnTime.told {keeper : Keeper} {fresh : Nat → Key} {interval : Nat} {before : List Move}
    (h : OnTime keeper fresh interval before s) (hsettled : s.Settled)
    (hplay : play? { s with signalled := true } later = some s') :
    calledAt (before ++ .signal :: later) = calledAt before ∧
    s'.task.keeper = s.task.keeper ∧
    (s'.task.state = .ended ∧ leftAt (before ++ .signal :: later) = [clock before] ∨
      s'.task.state = .running ∧ leftAt (before ++ .signal :: later) = [] ∧
        s'.task.now = clock before ∧
        (∀ time, s'.act? (.elapse time) = none) ∧ (s'.act? .leave).isSome) := by
  obtain ⟨hmoves, hkeeper, hend⟩ := play_of_told (s := { s with signalled := true })
    h.running rfl (h.settled_iff.mp hsettled) hplay
  have hcalled : instants Move.rotates (0 + clock before) (.signal :: later) = [] :=
    instants_eq_nil (List.forall_mem_cons.mpr ⟨rfl, hmoves⟩)
  have hleft : leftAt (before ++ .signal :: later) =
      instants Move.leaves s.task.now later := by
    rw [leftAt, instants_append, ← leftAt, h.left, Nat.zero_add, ← h.now]
    rfl
  refine ⟨?_, hkeeper, ?_⟩
  · rw [calledAt, instants_append, hcalled, List.append_nil]
    rfl
  · rw [hleft]
    rcases hend with ⟨rfl, hnone⟩ | ⟨hended, hone⟩
    · have hheld (time : Nat) : act? { s with signalled := true } (.elapse time) = none :=
        if_pos ⟨h.running, .inl rfl⟩
      have hfree : (act? { s with signalled := true } .leave).isSome :=
        Option.isSome_iff_exists.mpr ⟨_, if_pos ⟨h.running, rfl⟩⟩
      exact .inr ⟨h.running, hnone, h.now, hheld, hfree⟩
    · exact .inl ⟨hended, hone.trans (List.singleton_inj.mpr h.now)⟩

end Told

/-- A task can be told to stop at any instant, and end there. -/
theorem exists_course_told (keeper : Keeper) (fresh : Nat → Key) {interval : Nat}
    (hinterval : 0 < interval) (instant : Nat) :
    ∃ course, (∀ m ∈ course, m.signals = false) ∧ clock course = instant ∧
      (start keeper fresh interval).play? (course ++ [.signal, .leave]) =
        some ⟨((RotationTask.start keeper fresh interval).advanceTo instant).stop, true⟩ := by
  have hstart : OnTime keeper fresh interval [] (start keeper fresh interval) :=
    onTime_start hinterval
  obtain ⟨course, hcourse, hclock, hplay⟩ := exists_course (.start keeper fresh interval) instant
    hstart.running hinterval (Nat.zero_le _) (Nat.zero_le _)
  have hon := hstart.play hcourse hplay
  have hleave : act? ⟨(RotationTask.start keeper fresh interval).advanceTo instant, true⟩ .leave =
      some ⟨((RotationTask.start keeper fresh interval).advanceTo instant).stop, true⟩ :=
    if_pos ⟨hon.running, rfl⟩
  refine ⟨course, hcourse, (Nat.zero_add _).symm.trans hclock, ?_⟩
  rw [play?_append]
  change (play? ⟨.start keeper fresh interval, false⟩ course).bind _ = _
  rw [hplay]
  exact congrArg (·.bind some) hleave

/-- A task that is told to stop at an instant between two rotations. There is such a run, the one that
follows the timer. In every such run the task calls for a rotation at each multiple of its interval until
then and at no other instant, and the ring has had as many rotations as intervals have gone by whenever
nobody has anything to do; no time passes otherwise. Once told, the task has only its end before it, at
that same instant. -/
theorem rotates_on_schedule_until_told (keeper : Keeper) (fresh : Nat → Key) (interval instant : Nat)
    (hinterval : 0 < interval) (hbetween : ¬ interval ∣ instant) :
    (∃ course, (∀ m ∈ course, m.signals = false) ∧ clock course = instant ∧
      (start keeper fresh interval).play? (course ++ [.signal, .leave]) =
        some ⟨((RotationTask.start keeper fresh interval).advanceTo instant).stop, true⟩) ∧
    ∀ before later s, (∀ m ∈ before, m.signals = false) → clock before = instant →
      (start keeper fresh interval).play? (before ++ .signal :: later) = some s →
      calledAt (before ++ .signal :: later) = timetable interval (instant / interval) ∧
      (∀ earlier, earlier <+: before → ∃ t, (start keeper fresh interval).play? earlier = some t ∧
        t.task.state = .running ∧ t.task.now = clock earlier ∧
        t.task.keeper = keeper.after (calls fresh earlier) ∧
        (t.Settled → (calls fresh earlier).length = clock earlier / interval) ∧
        (¬ t.Settled → ∀ time, 0 < time → t.act? (.elapse time) = none)) ∧
      s.task.keeper = keeper.after (calls fresh before) ∧
      (calls fresh before).length = instant / interval ∧
      (s.task.state = .ended ∧ leftAt (before ++ .signal :: later) = [instant] ∨
        s.task.state = .running ∧ leftAt (before ++ .signal :: later) = [] ∧ s.task.now = instant ∧
          (∀ time, s.act? (.elapse time) = none) ∧ (s.act? .leave).isSome) := by
  have hstart : OnTime keeper fresh interval [] (start keeper fresh interval) :=
    onTime_start hinterval
  refine ⟨exists_course_told keeper fresh hinterval instant, ?_⟩
  rintro before later s hbefore rfl hplay
  rw [play?_append] at hplay
  obtain ⟨told, hearlier, hlater⟩ := Option.bind_eq_some_iff.mp hplay
  have hon : OnTime keeper fresh interval before told := hstart.play hbefore hearlier
  have hsettled : told.Settled := hon.settled_of_not_dvd hbetween
  have hlength := hon.length_of_settled hsettled
  obtain ⟨hcalled, hkeeper, hend⟩ := hon.told hsettled hlater
  refine ⟨?_, ?_, hkeeper.trans hon.keeper_eq, hlength, hend⟩
  · rw [hcalled, ← hlength]
    exact hon.called
  · rintro earlier ⟨rest, rfl⟩
    rw [play?_append] at hearlier
    obtain ⟨t, ht, -⟩ := Option.bind_eq_some_iff.mp hearlier
    have hont : OnTime keeper fresh interval earlier t :=
      hstart.play (fun m hm => hbefore m (List.mem_append_left _ hm)) ht
    exact ⟨t, ht, hont.running, hont.now, hont.keeper_eq, hont.length_of_settled,
      fun hs _ => hont.holds hs⟩

/-- A ring of three keys in memory. -/
def ofThree : Keeper :=
  .start ⟨.inMemory, ⟨Keeper.keyOf 1, [Keeper.keyOf 2, Keeper.keyOf 3]⟩⟩ ⟨[], []⟩

/-- Two rotations a minute apart, and ten seconds to the signal. -/
def twice : List Move :=
  [.elapse 60000, .rotate Storage.noFailure, .elapse 60000, .rotate Storage.noFailure, .elapse 10000]

/-- Three keys after two rotations. -/
theorem ofThree_rotates_twice :
    ¬ 60000 ∣ 130000 ∧ (∀ m ∈ twice, m.signals = false) ∧ clock twice = 130000 ∧
    ∃ s, (start ofThree (fun _ => Keeper.keyOf 4) 60000).play? (twice ++ .signal :: [.leave]) =
        some s ∧
      calledAt (twice ++ .signal :: [.leave]) = [60000, 120000] ∧
      s.task.keeper.ring.keys.toList = [Keeper.keyOf 3, Keeper.keyOf 1, Keeper.keyOf 2] := by
  have hbetween : ¬ 60000 ∣ 130000 := by decide
  have htwice : ∀ m ∈ twice, m.signals = false := by simp [twice, Move.signals]
  refine ⟨hbetween, htwice, rfl, _, rfl, ?_⟩
  obtain ⟨hcalled, -, hkeeper, -⟩ := (rotates_on_schedule_until_told ofThree (fun _ => Keeper.keyOf 4)
    60000 130000 (by decide) hbetween).2 twice [.leave] _ htwice rfl rfl
  refine ⟨hcalled, ?_⟩
  rw [hkeeper]
  rfl

end Shift
end Gatehouse.Ticket
