import Gatehouse.Rehearsal.Script

namespace Gatehouse.Rehearsal

open Gatehouse.Stream

/-- What can be rehearsed. -/
class Subject (σ : Type) where
  step? : σ → Option σ
  /-- When it goes on by itself at the latest. -/
  timer? : σ → Option Nat
  elapse : σ → Nat → σ
  isDone : σ → Bool
  client : σ → Link
  setClient : σ → Link → σ
  /-- The site's connection, once there is one. -/
  site? : σ → Option Link
  setSite : σ → Link → σ

/-- Whose turn it is. -/
inductive Turn
  | subject
  | client
  | site
deriving Repr, DecidableEq

def Turn.next : Turn → Turn
  | .subject => .client
  | .client => .site
  | .site => .subject

end Rehearsal

open Gatehouse.Rehearsal

structure Rehearsal (σ : Type) where
  now : Nat
  subject : σ
  /-- Nobody, if the client was gone before. -/
  client : Option Player
  site : Player
  /-- When the subject was done. -/
  finished : Option Nat

namespace Rehearsal

variable {σ : Type} [Subject σ]

def start (subject : σ) (client : Option (List Line)) (site : List Line) : Rehearsal σ :=
  ⟨0, subject, client.map .start, .start site, none⟩

/-- What the one whose turn it is does next, if it can do anything. -/
def step? (r : Rehearsal σ) : Turn → Option (Rehearsal σ)
  | .subject =>
    (Subject.step? r.subject).map fun subject =>
      { r with
        subject := subject
        finished := r.finished.or (if Subject.isDone subject then some r.now else none) }
  | .client => do
    let player ← r.client
    let (player, link) ← player.step? r.now r.finished.isSome (Subject.client r.subject)
    return { r with client := some player, subject := Subject.setClient r.subject link }
  | .site => do
    let link ← Subject.site? r.subject
    let (player, link) ← r.site.step? r.now r.finished.isSome link
    return { r with site := player, subject := Subject.setSite r.subject link }

def timer? (r : Rehearsal σ) : Option Nat :=
  ([Subject.timer? r.subject, r.client.bind Player.wake, r.site.wake].filterMap id).min?

def setClock (r : Rehearsal σ) (instant : Nat) : Rehearsal σ :=
  { r with now := instant, subject := Subject.elapse r.subject (instant - r.now) }

/-- Plays for at most `fuel` steps; `idle` turns in a row have passed without one. Each goes on as
long as it can; when nobody can, the clock is set to the next instant at which somebody goes on. -/
def playFrom (turn : Turn) (idle : Nat) : Nat → Rehearsal σ → Rehearsal σ
  | 0, r => r
  | fuel + 1, r =>
    match r.step? turn with
    | some r => playFrom turn 0 fuel r
    | none =>
      if idle < 3 then playFrom turn.next (idle + 1) fuel r
      else
        match r.timer? with
        | some instant => playFrom .subject 0 fuel (r.setClock instant)
        | none => r

/-- How much there is to do for a line: every byte may travel alone. -/
def Line.weight : Line → Nat
  | .write bs => bs.length + 1
  | _ => 1

/-- Plays to the end. `extra` is what the subject has to do besides carrying the client's and the
site's bytes. -/
def play (r : Rehearsal σ) (extra : Nat) : Rehearsal σ :=
  let lines := (r.client.map Player.lines).getD [] ++ r.site.lines
  playFrom .subject 0 (64 * ((lines.map Line.weight).foldr (· + ·) 0 + extra + 8)) r

def clientResults? (r : Rehearsal σ) : Option (List Result) := r.client.map (·.results.reverse)

def siteResults (r : Rehearsal σ) : List Result := r.site.results.reverse

end Rehearsal
end Gatehouse
