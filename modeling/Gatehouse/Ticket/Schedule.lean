import Gatehouse.Ticket.Keeper

namespace Gatehouse.Ticket

inductive TaskState
  | running
  | ended
  /-- An interval of no length cannot be kept. -/
  | failed
deriving Repr, DecidableEq

/-- The task that rotates a ring at a fixed interval until it is told to stop. Times are
milliseconds since it was started. -/
structure RotationTask where
  keeper : Keeper
  /-- The keys that rotations put in front, should the ring need them: one for each rotation. -/
  fresh : Nat → Key
  interval : Nat
  now : Nat
  /-- When the next rotation is due. -/
  due : Nat
  rotations : Nat
  state : TaskState

namespace RotationTask

/-- The first rotation is due one full interval after the start. -/
def start (keeper : Keeper) (fresh : Nat → Key) (interval : Nat) : RotationTask where
  keeper := keeper
  fresh := fresh
  interval := interval
  now := 0
  due := interval
  rotations := 0
  state := if interval = 0 then .failed else .running

/-- A rotation that comes later than this is late. -/
def tolerance : Nat := 5

/-- When the next rotation is due. Behind a late one a full interval passes. -/
def dueNext (task : RotationTask) : Nat :=
  (if task.due + tolerance < task.now then task.now else task.due) + task.interval

def rotateNow (fails : Nat → Option Storage.Error) (task : RotationTask) : RotationTask :=
  { task with
    keeper := (task.keeper.rotateWith fails (task.fresh task.rotations)).2
    due := task.dueNext
    rotations := task.rotations + 1 }

def tick (task : RotationTask) : RotationTask :=
  { task with now := task.due }.rotateNow Storage.noFailure

theorem due_tick (task : RotationTask) : task.tick.due = task.due + task.interval :=
  congrArg (· + task.interval) (if_neg (Nat.not_lt.mpr (Nat.le_add_right task.due tolerance)))

/-- Lets time pass up to an instant, with every rotation due until then. -/
def advanceTo (task : RotationTask) (instant : Nat) : RotationTask :=
  if task.state = .running ∧ 0 < task.interval ∧ task.due ≤ instant then
    task.tick.advanceTo instant
  else { task with now := max task.now instant }
termination_by instant + 1 - task.due
decreasing_by simp only [due_tick]; omega

/-- A signal, or the end of all who could send one, ends a running task. -/
def stop (task : RotationTask) : RotationTask :=
  if task.state = .running then { task with state := .ended } else task

end RotationTask

/-- A task between its timer and the signal that ends it, on a clock that jumps to the next timer once
everybody waits. -/
structure Shift where
  task : RotationTask
  /-- A signal was sent, or nobody is left who could send one. -/
  signalled : Bool

namespace Shift

def start (keeper : Keeper) (fresh : Nat → Key) (interval : Nat) : Shift :=
  ⟨.start keeper fresh interval, false⟩

inductive Move
  /-- Time passes while everybody waits. -/
  | elapse (time : Nat)
  | signal
  /-- The task finds that its timer has run out. -/
  | rotate (fails : Nat → Option Storage.Error)
  /-- The task finds the signal. -/
  | leave

/-- The clock does not go past a timer, and stands still while there is something to do. A task that
finds both its timer run out and the signal may take to either. -/
def act? (s : Shift) : Move → Option Shift
  | .elapse time =>
    if s.task.state = .running ∧ (s.signalled ∨ s.task.due < s.task.now + time) then none
    else some { s with task := { s.task with now := s.task.now + time } }
  | .signal => some { s with signalled := true }
  | .rotate fails =>
    if s.task.state = .running ∧ s.task.due ≤ s.task.now then
      some { s with task := s.task.rotateNow fails }
    else none
  | .leave =>
    if s.task.state = .running ∧ s.signalled then some { s with task := s.task.stop } else none

end Shift
end Gatehouse.Ticket
