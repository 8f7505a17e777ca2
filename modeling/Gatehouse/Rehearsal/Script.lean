import Gatehouse.Stream.Deed

namespace Gatehouse.Rehearsal

open Gatehouse.Stream

inductive Line
  | write (bs : Bytes)
  /-- Reads until `n` bytes are there, or to the end. -/
  | read (n : Nat)
  | readAll
  | sleep (time : Nat)
  | shutdown
  /-- Waits until the one under rehearsal is done. -/
  | hold
deriving Repr, DecidableEq

/-- What a line gave. -/
inductive Result
  | ok
  | failed (fault : Fault)
  | received (bs : Bytes)
deriving Repr, DecidableEq

def gulp : Nat := 8192

structure Player where
  /-- The lines to come. The first of them gets shorter as it is played. -/
  lines : List Line
  /-- What the line under way has read, the last piece first. -/
  gathered : List Bytes
  /-- When the line under way goes on. -/
  wake : Option Nat
  /-- The results so far, the last first. -/
  results : List Result
  /-- The player has left and given its end up. -/
  gone : Bool
deriving Repr, DecidableEq

namespace Player

def start (lines : List Line) : Player := ⟨lines, [], none, [], false⟩

/-- The line under way is over. -/
def next (player : Player) (result : Result) : Player :=
  { player with
    lines := player.lines.drop 1
    gathered := []
    wake := none
    results := result :: player.results }

def text (player : Player) : Bytes := player.gathered.reverse.flatten

def goOn (player : Player) (line : Line) (piece : Bytes) : Player :=
  { player with lines := line :: player.lines.drop 1, gathered := piece :: player.gathered }

/-- Reads once; `line` is what is left to do of the line if something came. -/
def gather (player : Player) (near : Link) (n : Nat) (line : Nat → Line) :
    Option (Player × Link) :=
  match near.actFar (.read n) with
  | (.got (.done []), near) => some (player.next (.received player.text), near)
  | (.got (.done bs), near) => some (player.goOn (line bs.length) bs, near)
  | (.got (.failed fault), near) => some (player.next (.failed fault), near)
  | _ => none

/-- The next thing the player can do, with the connection seen from the other side. Having no line
left it leaves. -/
def step? (player : Player) (now : Nat) (released : Bool) (near : Link) :
    Option (Player × Link) :=
  match player.lines with
  | [] => if player.gone then none else some ({ player with gone := true }, (near.actFar .drop).2)
  | .write [] :: _ => some (player.next .ok, near)
  | .write bs :: _ =>
    match near.actFar (.write bs) with
    | (.wrote (.done n), near) => some (player.goOn (.write (bs.drop n)) [], near)
    | (.wrote (.failed fault), near) => some (player.next (.failed fault), near)
    | _ => none
  | .read 0 :: _ => some (player.next (.received player.text), near)
  | .read n :: _ => player.gather near n fun k => .read (n - k)
  | .readAll :: _ => player.gather near gulp fun _ => .readAll
  | .sleep time :: _ =>
    match player.wake with
    | none => some ({ player with wake := some (now + time) }, near)
    | some wake => if wake ≤ now then some (player.next .ok, near) else none
  | .shutdown :: _ => some (player.next .ok, (near.actFar .finish).2)
  | .hold :: _ => if released then some (player.next .ok, near) else none

end Player
end Gatehouse.Rehearsal
