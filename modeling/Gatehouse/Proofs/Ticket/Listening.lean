import Gatehouse.Proofs.Hello.Wire
import Gatehouse.Proofs.Ticket.Rotation
import Gatehouse.Ticket.Workbench

namespace Gatehouse.Ticket

namespace Keeper

/-- What is done with a ring at work. -/
inductive Deed
  | rotate (call : Call)
  | listen

/-- The deeds that add a listener. -/
def Deed.registers : Deed → Bool
  | .rotate _ => false
  | .listen => true

/-- One deed, and whether it has rotated the ring. -/
def perform (keeper : Keeper) : Deed → Bool × Keeper
  | .rotate call => keeper.rotateWith call.fails call.fresh
  | .listen => (false, keeper.listen)

/-- Of each deed whether it has rotated the ring, and the ring right behind it. -/
def course (keeper : Keeper) : List Deed → List (Bool × Keeper)
  | [] => []
  | deed :: rest => keeper.perform deed :: (keeper.perform deed).2.course rest

def last (keeper : Keeper) (deeds : List Deed) : Keeper :=
  deeds.foldl (fun keeper deed => (keeper.perform deed).2) keeper

/-- What is said behind a deed: if it has rotated the ring, the keys in force, to every listener in the
order of registration. -/
def said : Bool × Keeper → List (Nat × KeyList)
  | (true, keeper) => (List.range keeper.listeners).map (·, keeper.ring.keys)
  | (false, _) => []

/-- The keys that rotations have brought into force, in order. -/
def published (keeper : Keeper) (deeds : List Deed) : List KeyList :=
  (keeper.course deeds).filterMap fun (rotated, next) => if rotated then some next.ring.keys else none

/-- What one listener was told, in order. -/
def heard (keeper : Keeper) (listener : Nat) : List KeyList :=
  keeper.notices.filterMap fun (number, keys) => if number = listener then some keys else none

section Cons
variable (keeper : Keeper) (deed : Deed) (rest : List Deed)

@[simp] theorem last_nil : keeper.last [] = keeper := rfl

@[simp] theorem last_cons : keeper.last (deed :: rest) = (keeper.perform deed).2.last rest := rfl

@[simp] theorem course_cons :
    keeper.course (deed :: rest) = keeper.perform deed :: (keeper.perform deed).2.course rest := rfl

theorem published_cons : keeper.published (deed :: rest) =
    (if (keeper.perform deed).1 then [(keeper.perform deed).2.ring.keys] else []) ++
      (keeper.perform deed).2.published rest := by
  rw [published, course_cons, List.filterMap_cons]
  obtain ⟨rotated, next⟩ := keeper.perform deed
  cases rotated <;> rfl

theorem last_append (before : List Deed) :
    keeper.last (before ++ rest) = (keeper.last before).last rest := List.foldl_append

end Cons

/-- All that a deed can do. -/
theorem perform_cases (keeper : Keeper) (deed : Deed) :
    (deed = .listen ∧ keeper.perform deed = (false, keeper.listen)) ∨
    (deed.registers = false ∧ keeper.perform deed = (false, keeper)) ∨
    deed.registers = false ∧ ∃ ring disk, keeper.perform deed = (true, ⟨ring, disk, keeper.listeners,
      keeper.notices ++ (List.range keeper.listeners).map (·, ring.keys),
      keeper.metrics.countRotation⟩) := by
  cases deed with
  | listen => exact .inl ⟨rfl, rfl⟩
  | rotate call =>
    refine .inr ?_
    rw [perform, rotateWith]
    cases keeper.ring.next? call.fresh with
    | none => exact .inl ⟨rfl, rfl⟩
    | some next => exact .inr ⟨rfl, next, _, rfl⟩

theorem listeners_last (keeper : Keeper) (deeds : List Deed) :
    (keeper.last deeds).listeners = keeper.listeners + deeds.countP Deed.registers := by
  induction deeds generalizing keeper with
  | nil => rfl
  | cons deed rest ih =>
    rw [last_cons, ih, List.countP_cons]
    rcases keeper.perform_cases deed with ⟨rfl, h⟩ | ⟨hkind, h⟩ | ⟨hkind, ring, disk, h⟩
    · rw [h, listen, Deed.registers, if_pos rfl, Nat.add_right_comm, Nat.add_assoc]
    · rw [h, hkind]
      rfl
    · rw [h, hkind]
      rfl

theorem notices_perform (keeper : Keeper) (deed : Deed) :
    (keeper.perform deed).2.notices = keeper.notices ++ said (keeper.perform deed) := by
  rcases keeper.perform_cases deed with ⟨-, h⟩ | ⟨-, h⟩ | ⟨-, ring, disk, h⟩ <;> rw [h]
  · exact (List.append_nil _).symm
  · exact (List.append_nil _).symm
  · rfl

theorem notices_last (keeper : Keeper) (deeds : List Deed) :
    (keeper.last deeds).notices = keeper.notices ++ (keeper.course deeds).flatMap said := by
  induction deeds generalizing keeper with
  | nil => exact (List.append_nil _).symm
  | cons deed rest ih =>
    rw [last_cons, ih, notices_perform, course_cons, List.flatMap_cons, List.append_assoc]

/-- Among all listeners there is each one once. -/
theorem filterMap_range {α : Type} {number listeners : Nat} (h : number < listeners) (a : α) :
    ((List.range listeners).filterMap fun n => if n = number then some a else none) = [a] := by
  induction listeners with
  | zero => simp at h
  | succ listeners ih =>
    rw [List.range_succ, List.filterMap_append]
    by_cases hlast : listeners = number
    · have hbefore : ∀ n ∈ List.range listeners, (if n = number then some a else none) = none := by
        intro n hn
        rw [List.mem_range] at hn
        exact if_neg (by omega)
      rw [List.filterMap_eq_nil_iff.mpr hbefore]
      simp [hlast]
    · rw [ih (by omega)]
      simp [hlast]

theorem heard_perform {keeper : Keeper} {number : Nat} (h : number < keeper.listeners) (deed : Deed) :
    (keeper.perform deed).2.heard number = keeper.heard number ++
        (if (keeper.perform deed).1 then [(keeper.perform deed).2.ring.keys] else []) ∧
      number < (keeper.perform deed).2.listeners := by
  rw [heard, notices_perform, List.filterMap_append]
  rcases keeper.perform_cases deed with ⟨-, hdeed⟩ | ⟨-, hdeed⟩ | ⟨-, ring, disk, hdeed⟩ <;> rw [hdeed]
  · exact ⟨rfl, Nat.lt_succ_of_lt h⟩
  · exact ⟨rfl, h⟩
  · refine ⟨congrArg _ ?_, h⟩
    rw [said, List.filterMap_map]
    exact filterMap_range h ring.keys

/-- A listener hears what is published. -/
theorem heard_last {keeper : Keeper} {number : Nat} (h : number < keeper.listeners)
    (deeds : List Deed) :
    (keeper.last deeds).heard number = keeper.heard number ++ keeper.published deeds := by
  induction deeds generalizing keeper with
  | nil => exact (List.append_nil _).symm
  | cons deed rest ih =>
    obtain ⟨hheard, hnext⟩ := heard_perform h deed
    rw [last_cons, ih hnext, hheard, List.append_assoc, ← published_cons]

/-- Only listeners that are registered have heard of anything. -/
def Addressed (keeper : Keeper) : Prop := ∀ notice ∈ keeper.notices, notice.1 < keeper.listeners

theorem Addressed.perform {keeper : Keeper} (h : keeper.Addressed) (deed : Deed) :
    (keeper.perform deed).2.Addressed := by
  rcases keeper.perform_cases deed with ⟨-, hdeed⟩ | ⟨-, hdeed⟩ | ⟨-, ring, disk, hdeed⟩ <;> rw [hdeed]
  · exact fun notice hnotice => Nat.lt_succ_of_lt (h notice hnotice)
  · exact h
  · intro notice hnotice
    rcases List.mem_append.mp hnotice with hold | hnew
    · exact h notice hold
    · obtain ⟨n, hn, rfl⟩ := List.mem_map.mp hnew
      exact List.mem_range.mp hn

theorem Addressed.last {keeper : Keeper} (h : keeper.Addressed) (deeds : List Deed) :
    (keeper.last deeds).Addressed := by
  induction deeds generalizing keeper with
  | nil => exact h
  | cons deed rest ih => exact ih (h.perform deed)

theorem Addressed.heard_eq_nil {keeper : Keeper} (h : keeper.Addressed) {number : Nat}
    (hnew : keeper.listeners ≤ number) : keeper.heard number = [] := by
  rw [heard, List.filterMap_eq_nil_iff]
  intro notice hnotice
  have hlt := h notice hnotice
  exact if_neg (by omega)

theorem length_published (keeper : Keeper) (deeds : List Deed) :
    (keeper.published deeds).length = ((keeper.course deeds).map Prod.fst).count true := by
  induction deeds generalizing keeper with
  | nil => rfl
  | cons deed rest ih =>
    rw [published_cons, course_cons, List.map_cons, List.count_cons, ← ih, List.length_append,
      Nat.add_comm]
    cases (keeper.perform deed).1 <;> rfl

theorem value?_last (keeper : Keeper) (deeds : List Deed) :
    (keeper.last deeds).metrics.value? .keyRotations =
      if keeper.published deeds = [] then keeper.metrics.value? .keyRotations
      else some (((keeper.metrics.value? .keyRotations).getD 0 + (keeper.published deeds).length) %
        Metrics.counterLimit) := by
  induction deeds generalizing keeper with
  | nil => rfl
  | cons deed rest ih =>
    rw [last_cons, ih, published_cons]
    rcases keeper.perform_cases deed with ⟨-, hdeed⟩ | ⟨-, hdeed⟩ | ⟨-, ring, disk, hdeed⟩ <;> rw [hdeed]
    · rfl
    · rfl
    · simp only [Metrics.countRotation, Metrics.value?_add, if_true, List.singleton_append,
        List.length_cons, List.cons_ne_nil, if_false, Option.getD_some]
      split
      next hnone => rw [hnone, List.length_nil]
      next => rw [Nat.mod_add_mod, Nat.add_assoc, Nat.add_comm 1]

end Keeper

namespace Workbench

/-- A workbench after some actions, if the disk allows them. -/
def run (w : Workbench) : List Action → Except Storage.Error Workbench
  | [] => .ok w
  | action :: rest => do
    let (_, next) ← w.act action
    next.run rest

/-- Nothing that is held is exchanged. -/
theorem held_act {w next : Workbench} {action : Action} {answer : Answer}
    (h : w.act action = .ok (answer, next)) (hkept : action ≠ .dropHeld) : w.held <+: next.held := by
  cases action with
  | dropHeld => contradiction
  | writeFile path content =>
    simp only [act, except_bind_eq_ok_iff, pure, Except.pure, Except.ok.injEq, Prod.mk.injEq] at h
    obtain ⟨_, -, _, -, -, rfl⟩ := h
    exact List.prefix_rfl
  | removeFile path =>
    simp only [act, except_bind_eq_ok_iff, pure, Except.pure, Except.ok.injEq, Prod.mk.injEq] at h
    obtain ⟨_, -, -, rfl⟩ := h
    exact List.prefix_rfl
  | hold =>
    obtain ⟨-, rfl⟩ := Prod.mk.inj (Except.ok.inj h)
    exact List.prefix_append _ _
  | _ =>
    obtain ⟨-, rfl⟩ := Prod.mk.inj (Except.ok.inj h)
    exact List.prefix_rfl

theorem held_run {w last : Workbench} {actions : List Action} (h : w.run actions = .ok last)
    (hkept : .dropHeld ∉ actions) : w.held <+: last.held := by
  induction actions generalizing w with
  | nil =>
    obtain rfl := Except.ok.inj h
    exact List.prefix_rfl
  | cons action rest ih =>
    simp only [run, except_bind_eq_ok_iff, Prod.exists] at h
    obtain ⟨_, next, hact, hrest⟩ := h
    rw [List.mem_cons, not_or] at hkept
    exact (held_act hact (Ne.symm hkept.1)).trans (ih hrest hkept.2)

/-- What somebody took a look at stays as it was then. -/
theorem held_of_run_hold {w last : Workbench} {later : List Action}
    (h : w.run (.hold :: later) = .ok last) (hkept : .dropHeld ∉ later) :
    last.held[w.held.length]? = some w.keeper.ring.keys := by
  have hrest : ({ w with held := w.held ++ [w.keeper.ring.keys] } : Workbench).run later = .ok last := h
  obtain ⟨more, hmore⟩ := held_run hrest hkept
  rw [← hmore, List.append_assoc, List.getElem?_append_right (Nat.le_refl _), Nat.sub_self]
  rfl

end Workbench

open Keeper in
/-- Of every rotation that is made all listeners there are hear once, in the order in which they were
registered, and each listener hears of all rotations from its registration on, in their order and with the
keys that were in force right then. A call that rotates nothing is heard of by nobody, the rotations that
are made are counted, and keys that somebody holds stay what they were. -/
theorem listeners_hear_every_rotation (ring : Ring) (disk : Storage.Disk) (deeds : List Deed) :
    ((start ring disk).last deeds).notices = ((start ring disk).course deeds).flatMap said ∧
    (∀ before later, deeds = before ++ .listen :: later →
      ((start ring disk).last deeds).heard (before.countP Deed.registers) =
        ((start ring disk).last before).listen.published later) ∧
    (∀ number, ((start ring disk).last deeds).listeners ≤ number →
      ((start ring disk).last deeds).heard number = []) ∧
    (∀ call, (((start ring disk).last deeds).perform (.rotate call)).1 = false →
      (((start ring disk).last deeds).perform (.rotate call)).2 = (start ring disk).last deeds) ∧
    (((start ring disk).last deeds).metrics.value? .keyRotations).getD 0 =
      (((start ring disk).course deeds).map Prod.fst).count true % Metrics.counterLimit ∧
    ∀ (w last : Workbench) later, w.run (.hold :: later) = .ok last → .dropHeld ∉ later →
      last.held[w.held.length]? = some w.keeper.ring.keys := by
  have hnone : (start ring disk).Addressed := by simp [Addressed, start]
  refine ⟨notices_last _ deeds, ?_, fun number => (hnone.last deeds).heard_eq_nil, ?_, ?_,
    fun w last later => Workbench.held_of_run_hold⟩
  · intro before later hdeeds
    subst hdeeds
    have hplace : ((start ring disk).last before).listeners = before.countP Deed.registers := by
      rw [listeners_last, start, Nat.zero_add]
    have hregistered : ((start ring disk).last before).listeners <
        ((start ring disk).last before).listen.listeners := Nat.lt_succ_self _
    have hbefore : ((start ring disk).last before).listen.heard
        ((start ring disk).last before).listeners = [] :=
      (hnone.last before).heard_eq_nil (Nat.le_refl _)
    rw [last_append, last_cons, ← hplace]
    exact (heard_last hregistered later).trans (by rw [hbefore, List.nil_append])
  · intro call hskipped
    rcases perform_cases ((start ring disk).last deeds) (.rotate call) with
      ⟨hlisten, -⟩ | ⟨-, h⟩ | ⟨-, _, _, h⟩
    · contradiction
    · rw [h]
    · rw [h] at hskipped
      contradiction
  · rw [value?_last, ← length_published]
    split
    next hnothing => rw [hnothing]; rfl
    next => simp [start]

/-- Two keys that take turns. -/
def pair : KeyList := ⟨⟨List.replicate 32 3, rfl⟩, [⟨List.replicate 32 4, rfl⟩]⟩

open Keeper in
/-- Three turns, and a new listener behind each of the first two. -/
theorem listeners_hear_every_rotation_from_then_on :
    let turn : Deed := .rotate ⟨fun _ => none, pair.newest⟩
    let keeper := (start ⟨.inMemory, pair⟩ ⟨[], []⟩).last [turn, .listen, turn, .listen, turn]
    keeper.heard 0 = [pair, pair.shifted] ∧ keeper.heard 1 = [pair.shifted] ∧
      (keeper.metrics.value? .keyRotations).getD 0 = 3 := by
  intro turn keeper
  obtain ⟨-, hheard, -, -, hcounted, -⟩ :=
    listeners_hear_every_rotation ⟨.inMemory, pair⟩ ⟨[], []⟩ [turn, .listen, turn, .listen, turn]
  have hfirst := hheard [turn] [turn, .listen, turn] rfl
  have hsecond := hheard [turn, .listen, turn] [turn] rfl
  exact ⟨hfirst, hsecond, hcounted⟩

end Gatehouse.Ticket
