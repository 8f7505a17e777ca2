import Gatehouse.Rdp.Request

namespace Gatehouse.Rdp

def headerLength : Nat := 4

def maxFrame : Nat := 512

inductive Signal
  | sends (bs : Bytes)
  /-- It ends its stream, or breaks it. -/
  | ends
deriving Repr, DecidableEq

/-- What a client sends: pieces, each some time after the one before, and how long after the last
one it ends its stream, if it does. -/
structure Conduct where
  pieces : List (Nat × Bytes)
  ending : Option Nat
deriving Repr, DecidableEq

namespace Conduct

def bytes (c : Conduct) : Bytes := c.pieces.flatMap Prod.snd

def signals (c : Conduct) : List (Nat × Signal) :=
  c.pieces.map (fun (wait, piece) => (wait, .sends piece)) ++
    c.ending.toList.map fun wait => (wait, .ends)

end Conduct

/-- The length that a header announces for its frame, if it is acceptable. -/
def announced? : Bytes → Option Nat
  | 0x03 :: 0x00 :: hi :: lo :: _ =>
    let n := Bytes.be16 hi lo
    if headerLength < n ∧ n ≤ maxFrame then some n else none
  | _ => none

inductive Verdict
  | proceed
  | refused
deriving Repr, DecidableEq

structure Report where
  verdict : Verdict
  /-- What was sent to the client. -/
  written : Bytes
  /-- How many of the client's bytes were taken off the stream. -/
  consumed : Nat
  /-- When it was over. -/
  finished : Nat
deriving Repr, DecidableEq

/-- How far a negotiation is. -/
inductive Stage
  /-- The header of the frame is read, of which this much is there. -/
  | header (got : Bytes)
  /-- The frame is read whose length the header announced. -/
  | frame (length : Nat) (got : Bytes)
  /-- The client was refused at an instant, and what it sends is thrown away. -/
  | holding (since : Nat)
  | over (verdict : Verdict)
deriving Repr, DecidableEq

/-- A negotiation under way. -/
structure Talk where
  stage : Stage
  /-- What has arrived and was not taken off the stream. -/
  unread : Bytes
  /-- Nothing more will arrive. -/
  ended : Bool
  written : Bytes
  consumed : Nat
  now : Nat
  /-- How many bytes of a reply get out before the connection breaks, if it does. -/
  broken : Option Nat
deriving Repr, DecidableEq

namespace Talk

def start (broken : Option Nat) : Talk := ⟨.header [], [], false, [], 0, 0, broken⟩

/-- Reads on until `n` bytes are there, or all that has arrived is taken. -/
def fill (talk : Talk) (n : Nat) (got : Bytes) : Bytes × Talk :=
  let more := talk.unread.take (n - got.length)
  (got ++ more, { talk with
    unread := talk.unread.drop (n - got.length)
    consumed := talk.consumed + more.length })

/-- What has arrived is thrown away. There is no more to wait for once the stream has ended. -/
def hold (talk : Talk) (since : Nat) : Talk :=
  { talk with
    stage := if talk.ended then .over .refused else .holding since
    unread := []
    consumed := talk.consumed + talk.unread.length }

def refuse (talk : Talk) : Talk := talk.hold talk.now

/-- The frame is there, and the client gets its answer. Whom it does not reach is let go at once. -/
def answer (talk : Talk) (frame : Bytes) : Talk :=
  if asksForTls (stripRouting frame) then
    match talk.broken with
    | none => { talk with stage := .over .proceed, written := confirm }
    | some k => { talk with stage := .over .refused, written := confirm.take k }
  else talk.refuse

def readFrame (talk : Talk) (length : Nat) (got : Bytes) : Talk :=
  let (got, talk) := talk.fill length got
  if length ≤ got.length then talk.answer got
  else if talk.ended then talk.refuse
  else { talk with stage := .frame length got }

def readHeader (talk : Talk) (got : Bytes) : Talk :=
  let (got, talk) := talk.fill headerLength got
  if headerLength ≤ got.length then
    match announced? got with
    | some length => talk.readFrame length got
    | none => talk.refuse
  else if talk.ended then talk.refuse
  else { talk with stage := .header got }

def goOn (talk : Talk) : Talk :=
  match talk.stage with
  | .header got => talk.readHeader got
  | .frame length got => talk.readFrame length got
  | .holding since => talk.hold since
  | .over _ => talk

/-- The client does something at an instant. Once it is over, nobody minds. -/
def hear (talk : Talk) (instant : Nat) (signal : Signal) : Talk :=
  match talk.stage, signal with
  | .over _, _ => talk
  | _, .sends bs => { talk with now := instant, unread := talk.unread ++ bs }.goOn
  | _, .ends => { talk with now := instant, ended := true }.goOn

/-- The time that a stage may take is up. -/
def expire (talk : Talk) (deadline : Nat) : Talk :=
  match talk.stage with
  | .header _ | .frame _ _ => { talk with now := deadline }.refuse
  | .holding _ => { talk with now := deadline, stage := .over .refused }
  | .over _ => talk

def verdict (talk : Talk) : Verdict :=
  match talk.stage with
  | .over verdict => verdict
  | _ => .refused

def report (talk : Talk) : Report := ⟨talk.verdict, talk.written, talk.consumed, talk.now⟩

end Talk

/-- The exchange before TLS: a client that asks for TLS in time is confirmed, any other is held for
a while and then let go without a word. Times are milliseconds since the connection. -/
structure Negotiator where
  prefixTimeout : Nat
  holdOpen : Nat
deriving Repr, DecidableEq

namespace Negotiator

def deadline? (n : Negotiator) : Stage → Option Nat
  | .header _ | .frame _ _ => some n.prefixTimeout
  | .holding since => some (since + n.holdOpen)
  | .over _ => none

/-- The deadline passes if it lies before an instant, or if there is no instant to wait for. -/
def lapse (n : Negotiator) (instant : Option Nat) (talk : Talk) : Talk :=
  match n.deadline? talk.stage with
  | some deadline => if instant.all (deadline < ·) then talk.expire deadline else talk
  | none => talk

/-- Goes through all that the client does, and waits until it is over. Two deadlines can pass on
the way from one thing to the next: that of the reading, and that of the holding behind it. -/
def play (n : Negotiator) (talk : Talk) : List (Nat × Signal) → Talk
  | [] => n.lapse none (n.lapse none talk)
  | (wait, signal) :: rest =>
    let instant := some (talk.now + wait)
    n.play ((n.lapse instant (n.lapse instant talk)).hear (talk.now + wait) signal) rest

/-- A negotiation on a connection that breaks when the reply is sent, or does not. -/
def converse (n : Negotiator) (broken : Option Nat) (c : Conduct) : Talk :=
  n.play (.start broken) c.signals

def negotiate (n : Negotiator) (c : Conduct) : Report := (n.converse none c).report

end Negotiator
end Gatehouse.Rdp
