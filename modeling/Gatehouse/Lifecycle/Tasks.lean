import Gatehouse.Lifecycle.Shutdown

namespace Gatehouse

inductive BackgroundTask
  | rotation
  | acceptLoop
deriving Repr, DecidableEq

def BackgroundTask.order : List BackgroundTask := [.rotation, .acceptLoop]

/-- A gate that is being started while someone may trigger the shutdown. Each task ends when a
message comes after it has subscribed; none of them looks at the flag. -/
structure Launch where
  shutdown : Shutdown
  trigger : Shutdown.Trigger
  /-- The tasks that have not subscribed yet. -/
  pending : List BackgroundTask
  /-- The tasks that run, with what they wait on. -/
  running : List (BackgroundTask × Receiver)
  ended : List BackgroundTask
deriving Repr, DecidableEq

namespace Launch

def start : Launch := ⟨.start, .idle, BackgroundTask.order, [], []⟩

inductive Move
  /-- The next task subscribes and runs. -/
  | subscribe
  /-- The shutdown is triggered a step further. -/
  | trigger
  /-- The task at an index receives a message and ends. -/
  | receive (index : Nat)
deriving Repr, DecidableEq

def act? (l : Launch) : Move → Option Launch
  | .subscribe =>
    match l.pending with
    | task :: rest =>
      some { l with pending := rest, running := l.running ++ [(task, l.shutdown.subscribe)] }
    | [] => none
  | .trigger => do
    let (shutdown, trigger) ← l.trigger.step? l.shutdown
    return { l with shutdown := shutdown, trigger := trigger }
  | .receive i => do
    let (task, receiver) ← l.running[i]?
    let _ ← l.shutdown.receive? receiver
    return { l with running := l.running.eraseIdx i, ended := l.ended ++ [task] }

/-- The shutdown is triggered, and yet a task waits for a message that is not there. -/
def IsStuck (l : Launch) : Prop :=
  l.pending = [] ∧ l.trigger = .done ∧ ∃ p ∈ l.running, l.shutdown.hasMessage p.2 = false

end Launch
end Gatehouse
