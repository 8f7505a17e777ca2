import Gatehouse.Proofs.Admission
import Gatehouse.Proofs.Ticket.KeyFile

namespace Gatehouse
open Hello Ticket

/-- Keys that stand in another list as well honour nothing that is not honoured there. -/
theorem Ticket.KeyList.Honour.mono {keys more : KeyList} (h : ∀ k ∈ keys.toList, k ∈ more.toList)
    {ticket : Bytes} (honoured : keys.Honour ticket) : more.Honour ticket := by
  obtain ⟨hlong, k, hk, hvouches⟩ := honoured
  exact ⟨hlong, k, h k hk, hvouches⟩

/-- Two lists that honour the same tickets find the same fault, though they may open a ticket by
another key and to another state. -/
theorem ticketFault?_congr {keys keys' : KeyList}
    (h : ∀ ticket, keys.Honour ticket ↔ keys'.Honour ticket) (raw : Bytes) :
    ticketFault? keys raw = ticketFault? keys' raw := by
  have hopens (ticket : Bytes) : (∃ b bs, keys.open? ticket = some (b :: bs)) ↔
      ∃ b bs, keys'.open? ticket = some (b :: bs) :=
    (KeyList.open?_eq_some_cons_iff.trans (h ticket)).trans KeyList.open?_eq_some_cons_iff.symm
  unfold ticketFault?
  cases parse raw with
  | error e => rfl
  | ok parsed =>
    simp only
    split
    · rfl
    · split
      · rfl
      · have hsame := hopens parsed.hello.sessionTicket
        rcases hkeys : keys.open? parsed.hello.sessionTicket with _ | _ | ⟨b, bs⟩ <;>
          rcases hkeys' : keys'.open? parsed.hello.sessionTicket with _ | _ | ⟨c, cs⟩ <;>
          simp [hkeys, hkeys'] at hsame ⊢

namespace Doorman
variable {doorman : Doorman} {keys more : KeyList} {peer : Ip} {raw : Bytes}

theorem judge_congr (h : ∀ k, k ∈ keys.toList ↔ k ∈ more.toList) :
    doorman.judge keys peer raw = doorman.judge more peer raw := by
  have hsame (ticket : Bytes) : keys.Honour ticket ↔ more.Honour ticket :=
    ⟨.mono fun k => (h k).mp, .mono fun k => (h k).mpr⟩
  simp only [judge, ticketFault?_congr hsame]

theorem judge_of_pass {events : List ProbeEvent}
    (h : doorman.judge keys peer raw = (.pass, events)) :
    doorman.Waives peer ∨ ShowsTicket keys raw := by
  have hsound := doorman.judge_sound keys peer raw
  rw [h] at hsound
  exact hsound.1.pass_iff.mp rfl

/-- A decision to let someone through comes without an event. -/
theorem judge_eq_pass (h : doorman.Waives peer ∨ ShowsTicket keys raw) :
    doorman.judge keys peer raw = (.pass, []) := by
  obtain ⟨hdeserved, hevents⟩ := doorman.judge_sound keys peer raw
  have hpass := hdeserved.pass_iff.mpr h
  rw [hpass] at hevents
  exact Prod.ext hpass hevents

/-- With more keys whoever was let through still is. -/
theorem judge_mono (h : ∀ k ∈ keys.toList, k ∈ more.toList)
    (hpass : (doorman.judge keys peer raw).1 = .pass) :
    doorman.judge more peer raw = doorman.judge keys peer raw := by
  have hshown := judge_of_pass (Prod.ext hpass rfl)
  rw [judge_eq_pass hshown]
  refine judge_eq_pass (hshown.imp_right fun hticket => ?_)
  obtain ⟨p, ticket, hp, hfirst, honoured⟩ := hticket
  exact ⟨p, ticket, hp, hfirst, honoured.mono h⟩

end Doorman

namespace Watch

def Action.rotates : Action → Bool
  | .rotate _ => true
  | _ => false

/-- What is decided about a peer, if the action is about one. -/
def Action.verdict? (doorman : Doorman) (keys : KeyList) :
    Action → Option (Decision × List ProbeEvent)
  | .hello peer raw => some (doorman.judge keys peer raw)
  | .reject peer reason => some (doorman.reject peer reason)
  | .rotate _ => none

def Answer.verdict? : Answer → Option (Decision × List ProbeEvent)
  | .decided decision events => some (decision, events)
  | .rotated _ => none

/-- The decisions of a run with their events, in order. -/
def verdicts (watch : Watch) (actions : List Action) : List (Decision × List ProbeEvent) :=
  (watch.answers actions).filterMap Answer.verdict?

theorem verdict?_act (watch : Watch) (action : Action) :
    (watch.act action).1.verdict? = action.verdict? watch.doorman watch.keeper.ring.keys := by
  cases action <;> rfl

theorem verdicts_cons (watch : Watch) (action : Action) (rest : List Action) :
    watch.verdicts (action :: rest) =
      (action.verdict? watch.doorman watch.keeper.ring.keys).toList ++
        (watch.act action).2.verdicts rest := by
  rw [verdicts, answers_cons, List.filterMap_cons, verdict?_act]
  cases action.verdict? watch.doorman watch.keeper.ring.keys <;> rfl

/-- The sink hears what the decisions come with. -/
theorem events_eq (watch : Watch) (actions : List Action) :
    (watch.answers actions).flatMap Answer.events = (watch.verdicts actions).flatMap Prod.snd := by
  rw [verdicts]
  induction watch.answers actions with
  | nil => rfl
  | cons answer rest ih =>
    rw [List.flatMap_cons, ih]
    cases answer <;> rfl

theorem answers_take (watch : Watch) (actions : List Action) (n : Nat) :
    watch.answers (actions.take n) = (watch.answers actions).take n := by
  induction actions generalizing watch n with
  | nil => simp [answers, run]
  | cons action rest ih =>
    cases n with
    | zero => rfl
    | succ n => rw [List.take_succ_cons, answers_cons, answers_cons, List.take_succ_cons, ih]

theorem ring_act {action : Action} (h : action.rotates = false) (watch : Watch) :
    (watch.act action).2.keeper.ring = watch.keeper.ring := by
  cases action with
  | rotate fresh => simp [Action.rotates] at h
  | _ => rfl

/-- Without rotations, everything is decided by the keys at the beginning. -/
theorem verdicts_filter (watch : Watch) (actions : List Action) :
    watch.verdicts (actions.filter fun action => !action.rotates) =
      actions.filterMap (Action.verdict? watch.doorman watch.keeper.ring.keys) := by
  induction actions generalizing watch with
  | nil => rfl
  | cons action rest ih =>
    cases hrotates : action.rotates with
    | true =>
      cases action with
      | rotate fresh => exact ih watch
      | _ => simp [Action.rotates] at hrotates
    | false =>
      rw [List.filter_cons_of_pos (by simp [hrotates]), verdicts_cons, ih, doorman_act,
        ring_act hrotates, List.filterMap_cons]
      cases action.verdict? watch.doorman watch.keeper.ring.keys <;> rfl

/-- Whatever happens, the same keys are there, if in another order. -/
theorem keys_act_inMemory {watch : Watch} (h : watch.keeper.ring.mode = .inMemory)
    (action : Action) :
    (watch.act action).2.keeper.ring.mode = .inMemory ∧
      ∀ k, k ∈ (watch.act action).2.keeper.ring.keys.toList ↔ k ∈ watch.keeper.ring.keys.toList := by
  cases action with
  | rotate fresh =>
    have hkeys := Keeper.toList_rotateWith_inMemory h ⟨Storage.noFailure, fresh⟩
    exact ⟨(watch.keeper.mode_after [⟨Storage.noFailure, fresh⟩]).trans h,
      fun k => (hkeys ▸ List.mem_rotate : k ∈ (watch.keeper.rotate fresh).2.ring.keys.toList ↔ _)⟩
  | _ => exact ⟨h, fun _ => .rfl⟩

theorem verdicts_inMemory {watch : Watch} (h : watch.keeper.ring.mode = .inMemory) {keys : KeyList}
    (hkeys : ∀ k, k ∈ watch.keeper.ring.keys.toList ↔ k ∈ keys.toList) (actions : List Action) :
    watch.verdicts actions = actions.filterMap (Action.verdict? watch.doorman keys) := by
  induction actions generalizing watch with
  | nil => rfl
  | cons action rest ih =>
    obtain ⟨hmode, hsame⟩ := keys_act_inMemory h action
    have hverdict : action.verdict? watch.doorman watch.keeper.ring.keys =
        action.verdict? watch.doorman keys := by
      cases action with
      | hello peer raw => exact congrArg some (Doorman.judge_congr hkeys)
      | _ => rfl
    rw [verdicts_cons, ih hmode fun k => (hsame k).trans (hkeys k), doorman_act, hverdict,
      List.filterMap_cons]
    cases action.verdict? watch.doorman keys <;> rfl

/-- Without a limit, no key is ever lost. -/
theorem keys_act_file {watch : Watch} {path : String}
    (h : watch.keeper.ring.mode = .file path none) (action : Action) :
    (watch.act action).2.keeper.ring.mode = .file path none ∧
      ∀ k ∈ watch.keeper.ring.keys.toList, k ∈ (watch.act action).2.keeper.ring.keys.toList := by
  cases action with
  | rotate fresh =>
    rcases watch.keeper.rotateWith_cases Storage.noFailure fresh with
      ⟨-, hskip⟩ | ⟨-, -, hmode, hkeys⟩
    · have hsame : (watch.act (.rotate fresh)).2.keeper = watch.keeper := congrArg Prod.snd hskip
      rw [hsame]
      exact ⟨h, fun _ hk => hk⟩
    · rw [h] at hkeys
      exact ⟨hmode.trans h, fun k hk => hkeys ▸ List.mem_cons_of_mem fresh hk⟩
  | _ => exact ⟨h, fun _ hk => hk⟩

theorem verdicts_file {watch : Watch} {path : String} (h : watch.keeper.ring.mode = .file path none)
    {keys : KeyList} (hkeys : ∀ k ∈ keys.toList, k ∈ watch.keeper.ring.keys.toList)
    (actions : List Action) :
    List.Forall₂ (fun verdict plain => plain.1 = .pass → verdict = plain) (watch.verdicts actions)
      (actions.filterMap (Action.verdict? watch.doorman keys)) := by
  induction actions generalizing watch with
  | nil => exact .nil
  | cons action rest ih =>
    obtain ⟨hmode, hmore⟩ := keys_act_file h action
    have hrest := ih hmode fun k hk => hmore k (hkeys k hk)
    rw [doorman_act] at hrest
    rw [verdicts_cons, List.filterMap_cons]
    cases action with
    | hello peer raw => exact .cons (Doorman.judge_mono hkeys) hrest
    | reject peer reason => exact .cons (fun _ => rfl) hrest
    | rotate fresh => exact hrest

/-- The call for a rotation that an action makes. -/
def Action.call? : Action → Option Call
  | .rotate fresh => some ⟨Storage.noFailure, fresh⟩
  | _ => none

/-- The ring of a watch goes through its rotations as it would without any hellos. -/
theorem alike_after {watch : Watch} {keeper : Keeper} (h : Keeper.Alike keeper watch.keeper)
    (actions : List Action) :
    Keeper.Alike (keeper.after (actions.filterMap Action.call?)) (watch.after actions).keeper ∧
      (watch.answers actions).count (.rotated true) =
        (keeper.answers (actions.filterMap Action.call?)).count true := by
  -- Hellos move the counters that are kept beside the ring, so the two are alike but not equal.
  induction actions generalizing watch keeper with
  | nil => exact ⟨h, rfl⟩
  | cons action rest ih =>
    cases action with
    | rotate fresh =>
      obtain ⟨hanswer, hnext⟩ := h.rotateWith ⟨Storage.noFailure, fresh⟩
      have hstep : watch.act (.rotate fresh) = (.rotated (watch.keeper.rotate fresh).1,
        { watch with keeper := (watch.keeper.rotate fresh).2 }) := rfl
      have hnow : Keeper.Alike _ (watch.act (.rotate fresh)).2.keeper := hnext
      obtain ⟨hrest, hcount⟩ := ih hnow
      refine ⟨hrest, ?_⟩
      have hcall : (Action.rotate fresh :: rest).filterMap Action.call? =
          ⟨Storage.noFailure, fresh⟩ :: rest.filterMap Action.call? := rfl
      rw [hcall, answers_cons, Keeper.answers_cons, List.count_cons, List.count_cons, hcount,
        ← hanswer, hstep]
      simp [Keeper.rotate]
    | hello peer raw =>
      have hnow : Keeper.Alike keeper (watch.act (.hello peer raw)).2.keeper := ⟨h.ring, h.disk⟩
      obtain ⟨hrest, hcount⟩ := ih hnow
      exact ⟨hrest, (List.count_cons_of_ne (by simp)).trans hcount⟩
    | reject peer reason =>
      have hnow : Keeper.Alike keeper (watch.act (.reject peer reason)).2.keeper := ⟨h.ring, h.disk⟩
      obtain ⟨hrest, hcount⟩ := ih hnow
      exact ⟨hrest, (List.count_cons_of_ne (by simp)).trans hcount⟩

/-- With a limit, a key stays for as many rotations as it has room behind it. -/
theorem mem_after {watch : Watch} {path : String} {m : Nat}
    (h : watch.keeper.ring.mode = .file path (some m)) {i : Nat} {key : Key}
    (hkey : watch.keeper.ring.keys.toList[i]? = some key) {actions : List Action}
    (hfew : (watch.answers actions).count (.rotated true) < max m 1 - i) :
    key ∈ (watch.after actions).keeper.ring.keys.toList := by
  have hstart : Keeper.Alike watch.keeper watch.keeper := ⟨rfl, rfl⟩
  obtain ⟨halike, hcount⟩ := alike_after hstart actions
  rw [hcount, ← Keeper.length_fresh] at hfew
  rw [halike.ring, Keeper.toList_after_file h]
  split
  · exact List.mem_of_getElem? hkey
  · have hplace : (kept (some m) ((watch.keeper.fresh (actions.filterMap Action.call?)).reverse ++
        watch.keeper.ring.keys.toList))[
          (watch.keeper.fresh (actions.filterMap Action.call?)).length + i]? = some key := by
      rw [kept, List.getElem?_take_of_lt (by omega), List.getElem?_append_right (by simp),
        List.length_reverse, Nat.add_sub_cancel_left, hkey]
    exact List.mem_of_getElem? hplace

/-- Rotations disturb no decision: none at all for a ring in memory, none to let someone through for a
ring with a file, and with a limit none that a key stands for which is still there. -/
theorem rotations_leave_admission (watch : Watch) (actions : List Action) :
    (watch.keeper.ring.mode = .inMemory →
      watch.verdicts actions = watch.verdicts (actions.filter fun action => !action.rotates) ∧
      (watch.answers actions).flatMap Answer.events =
        (watch.answers (actions.filter fun action => !action.rotates)).flatMap Answer.events) ∧
    (∀ path, watch.keeper.ring.mode = .file path none →
      List.Forall₂ (fun verdict plain => plain.1 = .pass → verdict = plain)
        (watch.verdicts actions)
        (watch.verdicts (actions.filter fun action => !action.rotates))) ∧
    (∀ path m, watch.keeper.ring.mode = .file path (some m) →
      ∀ peer raw p ticket i key, parse raw = .ok p → p.hello.FirstTicket ticket →
        watch.keeper.ring.keys.toList[i]? = some key → (key.open? ticket).isSome = true →
        (watch.doorman.judge watch.keeper.ring.keys peer raw).1 = .pass →
        ∀ n, actions[n]? = some (.hello peer raw) →
          ((watch.answers actions).take n).count (.rotated true) < max m 1 - i →
          (watch.answers actions)[n]? = some (.decided .pass [])) := by
  refine ⟨fun h => ?_, fun path h => ?_, ?_⟩
  · have hsame : watch.verdicts actions =
        watch.verdicts (actions.filter fun action => !action.rotates) := by
      rw [verdicts_filter, verdicts_inMemory h fun _ => .rfl]
    exact ⟨hsame, by rw [events_eq, events_eq, hsame]⟩
  · rw [verdicts_filter]
    exact verdicts_file h (fun _ hk => hk) actions
  · intro path m h peer raw p ticket i key hp hticket hkey hopens hpass n hn hfew
    rw [← answers_take] at hfew
    have hmem := mem_after h hkey hfew
    have hpassed : watch.doorman.Waives peer ∨
        ShowsTicket (watch.after (actions.take n)).keeper.ring.keys raw := by
      refine (Doorman.judge_of_pass (Prod.ext hpass rfl)).imp_right fun hshown => ?_
      obtain ⟨q, other, hq, hother, honoured⟩ := hshown
      obtain rfl := Except.ok.inj (hp.symm.trans hq)
      obtain rfl : ticket = other := Option.some.inj <|
        (extension?_eq_some_iff.mpr hticket).symm.trans (extension?_eq_some_iff.mpr hother)
      exact ⟨p, ticket, hp, hticket, honoured.1, key, hmem, (Key.open?_isSome_iff.mp hopens).2⟩
    rw [getElem?_answers, hn]
    simp [act, report, Doorman.judge_eq_pass hpassed]

end Watch
end Gatehouse
