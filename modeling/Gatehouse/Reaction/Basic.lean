import Gatehouse.Reaction.Alert

namespace Gatehouse

/-- What a rejected connection is put through. Delays are milliseconds. -/
inductive Reaction
  /-- Only watch: the handshake goes on as if the client had been admitted. -/
  | none
  | alert (alert : Alert)
  | close
  | delayed (delay : Nat) (next : Reaction)
  /-- Connect the client to another site. -/
  | reflect (destination : String)
deriving Repr, DecidableEq

namespace Reaction

/-- Whether the handshake goes on. -/
def isMonitorOnly : Reaction → Bool
  | .none => true
  | _ => false

def text : Reaction → String
  | .none => "none"
  | .alert a => "alert(" ++ a.name ++ ")"
  | .close => "close"
  | .delayed delay next => "delayed(" ++ toString delay ++ "ms, " ++ next.text ++ ")"
  | .reflect destination => "reflect(" ++ destination ++ ")"

def totalDelay : Reaction → Nat
  | .delayed delay next => delay + next.totalDelay
  | _ => 0

def layers : Reaction → Nat
  | .delayed _ next => next.layers + 1
  | _ => 0

/-- What is done once all delays are over. -/
def innermost : Reaction → Reaction
  | .delayed _ next => next.innermost
  | r => r

end Reaction
end Gatehouse
