import Gatehouse.Admission
import Gatehouse.Ticket.Keeper

namespace Gatehouse

/-- A doorman at work: hellos are judged one after the other while the ring rotates between them. -/
structure Watch where
  doorman : Doorman
  keeper : Ticket.Keeper

namespace Watch

inductive Action
  /-- A hello is judged. -/
  | hello (peer : Ip) (raw : Bytes)
  /-- A peer is rejected without a look at what it sent. -/
  | reject (peer : Ip) (reason : RejectReason)
  | rotate (fresh : Ticket.Key)

inductive Answer
  | decided (decision : Decision) (events : List ProbeEvent)
  | rotated (done : Bool)
deriving Repr, DecidableEq

/-- The events are counted among the other numbers that the ring's keeper has. -/
def report (watch : Watch) (outcome : Decision × List ProbeEvent) : Answer × Watch :=
  let keeper := { watch.keeper with metrics := watch.keeper.metrics.countProbes outcome.2 }
  (.decided outcome.1 outcome.2, { watch with keeper := keeper })

def act (watch : Watch) : Action → Answer × Watch
  | .hello peer raw => watch.report (watch.doorman.judge watch.keeper.ring.keys peer raw)
  | .reject peer reason => watch.report (watch.doorman.reject peer reason)
  | .rotate fresh =>
    let (done, keeper) := watch.keeper.rotate fresh
    (.rotated done, { watch with keeper := keeper })

def run (watch : Watch) : List Action → List Answer × Watch
  | [] => ([], watch)
  | action :: rest =>
    let (answer, watch) := watch.act action
    let (answers, watch) := watch.run rest
    (answer :: answers, watch)

end Watch
end Gatehouse
