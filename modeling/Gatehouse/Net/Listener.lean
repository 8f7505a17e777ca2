import Gatehouse.Address.Socket
import Gatehouse.Net.Slots

namespace Gatehouse

/-- Why the machine does not do what it is asked for: in short, and all that there is to know. -/
structure Refusal where
  message : String
  detail : String
deriving Repr, DecidableEq

/-- An address that is listened on, with the clients that are not accepted yet. -/
structure Listener where
  address : SocketAddress
  slots : Slots
  /-- The numbers of the clients that wait, the first in front. -/
  backlog : List Nat
  /-- How many clients there were. -/
  clients : Nat

namespace Listener

inductive BindError
  | address (text : String)
  /-- The machine does not let the address be listened on. -/
  | refused (refusal : Refusal)
  /-- More slots are asked for than there can be. -/
  | tooManySlots (max : Nat)
deriving Repr, DecidableEq

def BindError.message : BindError → String
  | .address text => "invalid bind address " ++ text ++ ": " ++ SocketAddress.syntaxMessage
  | .refused refusal => "failed to bind: " ++ refusal.message
  | .tooManySlots _ =>
    "a semaphore may not have more than MAX_PERMITS permits (2305843009213693951)"

/-- Listens on an address, which the machine opens under the one that it then has. The slots are
made last. -/
def bind (opens : SocketAddress → Except Refusal SocketAddress) (text : String) (max : Nat) :
    Except BindError Listener :=
  match SocketAddress.parse? text with
  | none => .error (.address text)
  | some address =>
    match opens address with
    | .error refusal => .error (.refused refusal)
    | .ok own => if maxSlots < max then .error (.tooManySlots max) else .ok ⟨own, .start max, [], 0⟩

inductive Action
  /-- One more client connects. -/
  | connect
  | accept
  /-- The n-th accepted connection is over. -/
  | release (number : Nat)
deriving Repr, DecidableEq

inductive Answer
  | nothing
  /-- The number of the client that was accepted. -/
  | accepted (client : Nat)
  | blocked
deriving Repr, DecidableEq

/-- An accept that cannot go on is given up. -/
def accept (l : Listener) : Answer × Listener :=
  match l.slots.acquire?, l.backlog with
  | some slots, client :: rest =>
    match slots.arrive? with
    | some slots => (.accepted client, { l with slots := slots, backlog := rest })
    | none => (.blocked, l)
  | some slots, [] => (.blocked, { l with slots := (slots.abandon?).getD slots })
  | none, _ => (.blocked, l)

def act (l : Listener) : Action → Answer × Listener
  | .connect => (.nothing, { l with backlog := l.backlog ++ [l.clients], clients := l.clients + 1 })
  | .accept => l.accept
  | .release number => (.nothing, { l with slots := (l.slots.release? number).getD l.slots })

def run (l : Listener) : List Action → List (Answer × Nat) × Listener
  | [] => ([], l)
  | action :: rest =>
    let (answer, l) := l.act action
    let (answers, final) := l.run rest
    ((answer, l.slots.available) :: answers, final)

end Listener
end Gatehouse
