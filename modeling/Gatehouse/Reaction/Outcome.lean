import Gatehouse.Reaction.Basic
import Gatehouse.Reaction.Relay

namespace Gatehouse.Execution

inductive Outcome
  | alerted (alert : Alert)
  | closed
  | reflected (destination : String) (stats : RelayStats)
deriving Repr, DecidableEq

inductive Fault
  /-- No connection to the other site was to be had, for a reason in words. -/
  | unreachable (destination cause : String)
  | broken (fault : Stream.Fault)
deriving Repr, DecidableEq

def Fault.message : Fault → String
  | .unreachable destination cause =>
    "failed to reach reflection site " ++ destination ++ ": " ++ cause
  | .broken fault => "I/O error during reaction: " ++ fault.message

end Gatehouse.Execution
