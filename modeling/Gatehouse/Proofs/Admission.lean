import Gatehouse.Proofs.Hello.Grammar
import Gatehouse.Proofs.Ticket.Opening
import Gatehouse.Watch

namespace Gatehouse
open Hello

/-- The addresses of this machine. -/
inductive Ip.OnThisMachine : Ip → Prop
  | v4 (b c d : UInt8) : OnThisMachine (.v4 127 b c d)
  | v6 : OnThisMachine (.v6 [0, 0, 0, 0, 0, 0, 0, 1])
  | mapped (hi lo : UInt16) (h : hi.toNat / 256 = 127) :
      OnThisMachine (.v6 [0, 0, 0, 0, 0, 0xffff, hi, lo])

theorem Ip.isLoopback_iff {ip : Ip} : ip.isLoopback = true ↔ ip.OnThisMachine := by
  have hhigh (hi : UInt16) : UInt8.ofNat (hi.toNat / 256) = 127 ↔ hi.toNat / 256 = 127 := by
    have := hi.toNat_lt
    rw [← UInt8.toNat_inj, UInt8.toNat_ofNat']
    have hmod : hi.toNat / 256 % 2 ^ 8 = hi.toNat / 256 := by omega
    rw [hmod]
    rfl
  constructor
  · intro h
    cases ip with
    | v4 a b c d =>
      have ha : a = 127 := by simpa [isLoopback] using h
      exact ha ▸ .v4 b c d
    | v6 groups =>
      unfold isLoopback at h
      cases hm : mapped? groups with
      | none =>
        simp only [hm, beq_iff_eq] at h
        exact h ▸ .v6
      | some quad =>
        unfold mapped? at hm
        split at hm
        · rename_i hi lo
          simp only [mapped?, embedded, beq_iff_eq] at h
          exact .mapped hi lo ((hhigh hi).mp h)
        · simp at hm
  · intro h
    cases h with
    | v4 b c d => rfl
    | v6 => rfl
    | mapped hi lo h => simp [isLoopback, mapped?, embedded, (hhigh hi).mpr h]

/-- The contents of the first ticket extension of a hello. -/
def Hello.ClientHello.FirstTicket (hello : ClientHello) (ticket : Bytes) : Prop :=
  ∃ before after, hello.extensions = before ++ ⟨35, ticket⟩ :: after ∧ ∀ x ∈ before, x.kind ≠ 35

/-- A ticket that is long enough to hold a state, and for which one of the keys vouches. -/
def Ticket.KeyList.Honour (keys : Ticket.KeyList) (ticket : Bytes) : Prop :=
  64 < ticket.length ∧ ∃ k ∈ keys.toList, k.Vouches ticket

/-- Bytes that start with a hello whose ticket is honoured. -/
def ShowsTicket (keys : Ticket.KeyList) (raw : Bytes) : Prop :=
  ∃ p ticket, parse raw = .ok p ∧ p.hello.FirstTicket ticket ∧ keys.Honour ticket

/-- Why bytes show no such ticket. Of the reasons that apply it is the first. -/
inductive Lacks (keys : Ticket.KeyList) (raw : Bytes) : RejectReason → Prop
  | malformed (h : ∀ p, parse raw ≠ .ok p) : Lacks keys raw .malformedHello
  | notOffered (p : Parsed) (h : parse raw = .ok p) (none : ∀ x ∈ p.hello.extensions, x.kind ≠ 35) :
      Lacks keys raw .extensionNotOffered
  | noTicket (p : Parsed) (h : parse raw = .ok p) (empty : p.hello.FirstTicket []) :
      Lacks keys raw .noTicket
  | invalid (p : Parsed) (ticket : Bytes) (h : parse raw = .ok p)
      (first : p.hello.FirstTicket ticket) (full : ticket ≠ []) (unknown : ¬ keys.Honour ticket) :
      Lacks keys raw .invalidTicket

theorem ShowsTicket.not_lacks {keys : Ticket.KeyList} {raw : Bytes} (h : ShowsTicket keys raw)
    (reason : RejectReason) : ¬ Lacks keys raw reason := by
  obtain ⟨p, ticket, hp, hticket, honoured⟩ := h
  have hfirst := extension?_eq_some_iff.mpr hticket
  intro hl
  cases hl with
  | malformed hbad => exact hbad p hp
  | notOffered q hq hnone =>
    rw [hp, Except.ok.injEq] at hq
    subst hq
    rw [extension?_eq_none_iff.mpr hnone] at hfirst
    contradiction
  | noTicket q hq hempty =>
    rw [hp, Except.ok.injEq] at hq
    subst hq
    rw [extension?_eq_some_iff.mpr hempty, Option.some.injEq] at hfirst
    subst hfirst
    exact absurd honoured.1 (by simp)
  | invalid q other hq hother hfull hunknown =>
    rw [hp, Except.ok.injEq] at hq
    subst hq
    rw [extension?_eq_some_iff.mpr hother, Option.some.injEq] at hfirst
    subst hfirst
    exact hunknown honoured

/-- A hello without a fault shows its ticket; any other lacks one for the reason that is given. -/
theorem ticketFault?_sound (keys : Ticket.KeyList) (raw : Bytes) :
    match ticketFault? keys raw with
    | none => ShowsTicket keys raw
    | some reason => Lacks keys raw reason := by
  unfold ticketFault?
  cases hp : parse raw with
  | error e => exact .malformed (by simp [hp])
  | ok p =>
    cases hx : p.hello.extension? 35 with
    | none =>
      have hnone := extension?_eq_none_iff.mp hx
      simpa [ClientHello.offersTicket, sessionTicketKind, hx] using .notOffered p hp hnone
    | some ticket =>
      have hfirst : p.hello.FirstTicket ticket := extension?_eq_some_iff.mp hx
      cases ticket with
      | nil =>
        simpa [ClientHello.offersTicket, ClientHello.sessionTicket, sessionTicketKind, hx]
          using .noTicket p hp hfirst
      | cons b bs =>
        simp only [ClientHello.offersTicket, ClientHello.sessionTicket, sessionTicketKind, hx,
          Option.isSome_some, Bool.not_true, Option.getD_some, List.isEmpty_cons,
          Bool.false_eq_true, if_false]
        have honoured : (∃ c cs, keys.open? (b :: bs) = some (c :: cs)) ↔ keys.Honour (b :: bs) :=
          Ticket.KeyList.open?_eq_some_cons_iff
        have refused (hno : ∀ c cs, keys.open? (b :: bs) ≠ some (c :: cs)) :
            Lacks keys raw .invalidTicket := by
          refine .invalid p (b :: bs) hp hfirst (by simp) ?_
          intro h
          obtain ⟨c, cs, hopen⟩ := honoured.mpr h
          exact hno c cs hopen
        cases hopen : keys.open? (b :: bs) with
        | none => exact refused (by simp [hopen])
        | some state =>
          cases state with
          | nil => exact refused (by simp [hopen])
          | cons c cs => exact ⟨p, b :: bs, hp, hfirst, honoured.mp ⟨c, cs, hopen⟩⟩

/-- A doorman who does not ask this peer for a ticket. -/
def Doorman.Waives (doorman : Doorman) (peer : Ip) : Prop :=
  doorman.loopbackBypass = true ∧ peer.OnThisMachine

/-- What a decision on a peer is reported by. -/
def Decision.report (peer : Ip) : Decision → List ProbeEvent
  | .pass => []
  | .reject reason _ => [⟨peer, reason⟩]

/-- The decision that bytes deserve. -/
structure Doorman.Deserves (doorman : Doorman) (keys : Ticket.KeyList) (peer : Ip) (raw : Bytes)
    (decision : Decision) : Prop where
  pass_iff : decision = .pass ↔ doorman.Waives peer ∨ ShowsTicket keys raw
  reject : decision ≠ .pass →
    ∃ reason, decision = .reject reason doorman.reaction ∧ Lacks keys raw reason

theorem Doorman.judge_sound (doorman : Doorman) (keys : Ticket.KeyList) (peer : Ip) (raw : Bytes) :
    doorman.Deserves keys peer raw (doorman.judge keys peer raw).1 ∧
      (doorman.judge keys peer raw).2 = (doorman.judge keys peer raw).1.report peer := by
  have hwaives : (doorman.loopbackBypass && peer.isLoopback) = true ↔ doorman.Waives peer := by
    rw [Bool.and_eq_true, Ip.isLoopback_iff, Waives]
  unfold judge
  by_cases hw : (doorman.loopbackBypass && peer.isLoopback) = true
  · rw [if_pos hw]
    exact ⟨⟨by simp [hwaives.mp hw], by simp⟩, rfl⟩
  · rw [if_neg hw]
    have hfault := ticketFault?_sound keys raw
    cases hf : ticketFault? keys raw with
    | none =>
      rw [hf] at hfault
      exact ⟨⟨by simp [show ShowsTicket keys raw from hfault], by simp⟩, rfl⟩
    | some reason =>
      rw [hf] at hfault
      have hl : Lacks keys raw reason := hfault
      have hno : ¬ (doorman.Waives peer ∨ ShowsTicket keys raw) := by
        intro hall
        rcases hall with h | h
        · exact hw (hwaives.mpr h)
        · exact h.not_lacks reason hl
      exact ⟨⟨by simp [Doorman.reject, hno], fun _ => ⟨reason, rfl, hl⟩⟩, rfl⟩

namespace Watch

/-- The state after some actions. -/
def after (watch : Watch) (actions : List Action) : Watch := (watch.run actions).2

def answers (watch : Watch) (actions : List Action) : List Answer := (watch.run actions).1

@[simp] theorem answers_cons (watch : Watch) (action : Action) (rest : List Action) :
    watch.answers (action :: rest) = (watch.act action).1 :: (watch.act action).2.answers rest :=
  rfl

@[simp] theorem after_cons (watch : Watch) (action : Action) (rest : List Action) :
    watch.after (action :: rest) = (watch.act action).2.after rest := rfl

/-- Every action is answered by the state that the ones before it lead to. -/
theorem getElem?_answers (watch : Watch) (actions : List Action) (i : Nat) :
    (watch.answers actions)[i]? =
      actions[i]?.map fun action => ((watch.after (actions.take i)).act action).1 := by
  induction actions generalizing watch i with
  | nil => simp [answers, run]
  | cons action rest ih =>
    cases i with
    | zero => simp [after, run]
    | succ i => simp [ih]

@[simp] theorem length_answers (watch : Watch) (actions : List Action) :
    (watch.answers actions).length = actions.length := by
  induction actions generalizing watch with
  | nil => rfl
  | cons action rest ih => simp [ih]

theorem doorman_act (watch : Watch) (action : Action) :
    (watch.act action).2.doorman = watch.doorman := by
  cases action <;> rfl

@[simp] theorem doorman_after (watch : Watch) (actions : List Action) :
    (watch.after actions).doorman = watch.doorman := by
  induction actions generalizing watch with
  | nil => rfl
  | cons action rest ih => rw [after_cons, ih, doorman_act]

/-- The peer whose connection an action is about. -/
def Action.peer? : Action → Option Ip
  | .hello peer _ => some peer
  | .reject peer _ => some peer
  | .rotate _ => none

/-- The event that a rejection is to be reported by. -/
def rejection? : Action × Answer → Option ProbeEvent
  | (action, .decided (.reject reason _) _) => action.peer?.map (⟨·, reason⟩)
  | _ => none

/-- What the sink is told with an answer. -/
def Answer.events : Answer → List ProbeEvent
  | .decided _ events => events
  | .rotated _ => []

theorem events_act (watch : Watch) (action : Action) :
    (watch.act action).1.events = (rejection? (action, (watch.act action).1)).toList := by
  cases action with
  | hello peer raw =>
    have h := (watch.doorman.judge_sound watch.keeper.ring.keys peer raw).2
    simp only [act, report, Answer.events, h]
    cases (watch.doorman.judge watch.keeper.ring.keys peer raw).1 <;> rfl
  | reject peer reason => rfl
  | rotate fresh => rfl

/-- The sink is told of the rejections, in their order, and of nothing else. -/
theorem events_answers (watch : Watch) (actions : List Action) :
    (watch.answers actions).flatMap Answer.events =
      (actions.zip (watch.answers actions)).filterMap rejection? := by
  induction actions generalizing watch with
  | nil => rfl
  | cons action rest ih =>
    rw [answers_cons, List.flatMap_cons, events_act, ih, List.zip_cons_cons, List.filterMap_cons]
    cases rejection? (action, (watch.act action).1) <;> rfl

/-- Over a run with any number of hellos, of plain rejections and of rotations between them, every
hello gets the decision that it deserves by the keys of that moment, and the sink hears of every
rejection once. -/
theorem run_decides_exactly (watch : Watch) (actions : List Action) :
    (∀ i peer raw, actions[i]? = some (.hello peer raw) →
      ∃ decision, (watch.answers actions)[i]? = some (.decided decision (decision.report peer)) ∧
        watch.doorman.Deserves (watch.after (actions.take i)).keeper.ring.keys peer raw decision) ∧
    (watch.answers actions).length = actions.length ∧
    (watch.answers actions).flatMap Answer.events =
      (actions.zip (watch.answers actions)).filterMap rejection? := by
  refine ⟨?_, length_answers watch actions, events_answers watch actions⟩
  intro i peer raw hi
  have hsound := (watch.after (actions.take i)).doorman.judge_sound
    (watch.after (actions.take i)).keeper.ring.keys peer raw
  rw [doorman_after] at hsound
  refine ⟨_, ?_, hsound.1⟩
  rw [getElem?_answers, hi, ← hsound.2]
  simp [act, report]

end Watch
end Gatehouse
