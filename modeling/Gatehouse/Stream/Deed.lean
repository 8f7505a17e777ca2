import Gatehouse.Stream.Pipe

namespace Gatehouse.Stream

inductive Deed
  | write (bs : Bytes)
  | read (n : Nat)
  /-- Ends one's own stream. -/
  | finish
  /-- Gives the end up. -/
  | drop
  /-- Breaks the connection. -/
  | reset
deriving Repr, DecidableEq

/-- What a deed gave. -/
inductive Outcome
  | wrote (result : Attempt Nat)
  | got (result : Attempt Bytes)
  | nothing
deriving Repr, DecidableEq

def Link.act (link : Link) : Deed → Outcome × Link
  | .write bs => let (result, link) := link.write bs; (.wrote result, link)
  | .read n => let (result, link) := link.read n; (.got result, link)
  | .finish => (.nothing, link.shutdown)
  | .drop => (.nothing, link.drop)
  | .reset => (.nothing, link.reset)

def Link.actFar (link : Link) (deed : Deed) : Outcome × Link :=
  let (outcome, far) := link.flip.act deed
  (outcome, far.flip)

/-- The bytes that went into the connection with a deed. -/
def Deed.sent : Deed → Outcome → Bytes
  | .write bs, .wrote (.done n) => bs.take n
  | _, _ => []

/-- The bytes that came out of the connection with a deed. -/
def Outcome.received : Outcome → Bytes
  | .got (.done bs) => bs
  | _ => []

end Gatehouse.Stream
