import Mathlib.Data.List.Basic

namespace Gatehouse

/-- Moves that let some time pass each. -/
class Timed (α : Type) where
  time : α → Nat

namespace Timed
variable {α : Type} [Timed α]

/-- How much time passes. -/
def clock : List α → Nat
  | [] => 0
  | m :: rest => time m + clock rest

/-- The instants at which moves of a kind are made. -/
def instants (kind : α → Bool) (now : Nat) : List α → List Nat
  | [] => []
  | m :: rest => (if kind m then [now] else []) ++ instants kind (now + time m) rest

section Script
variable {kind : α → Bool} {m : α} {now : Nat} {moves more : List α}

theorem clock_append : clock (moves ++ more) = clock moves + clock more := by
  induction moves with
  | nil => exact (Nat.zero_add _).symm
  | cons first rest ih => rw [List.cons_append, clock, clock, ih, Nat.add_assoc]

theorem clock_singleton : clock [m] = time m := Nat.add_zero _

theorem instants_append : instants kind now (moves ++ more) =
    instants kind now moves ++ instants kind (now + clock moves) more := by
  induction moves generalizing now with
  | nil => rfl
  | cons first rest ih =>
    rw [List.cons_append, instants, instants, ih, clock, List.append_assoc, Nat.add_assoc]

theorem instants_singleton : instants kind now [m] = if kind m then [now] else [] :=
  List.append_nil _

theorem instants_append_of_none (h : kind m = false) :
    instants kind now (moves ++ [m]) = instants kind now moves := by
  rw [instants_append, instants_singleton, h]
  exact List.append_nil _

theorem instants_append_of_kind (h : kind m = true) :
    instants kind now (moves ++ [m]) = instants kind now moves ++ [now + clock moves] := by
  rw [instants_append, instants_singleton, h]
  rfl

theorem instants_eq_nil (h : ∀ m ∈ moves, kind m = false) : instants kind now moves = [] := by
  induction moves generalizing now with
  | nil => rfl
  | cons first rest ih =>
    rw [List.forall_mem_cons] at h
    rw [instants, h.1, ih h.2]
    rfl

theorem length_instants : (instants kind now moves).length = moves.countP kind := by
  induction moves generalizing now with
  | nil => rfl
  | cons first rest ih =>
    rw [instants, List.length_append, ih, List.countP_cons, Nat.add_comm]
    split <;> rfl

theorem le_of_mem_instants {t : Nat} (h : t ∈ instants kind now moves) : t ≤ now + clock moves := by
  induction moves generalizing now with
  | nil => contradiction
  | cons first rest ih =>
    rw [clock, ← Nat.add_assoc]
    rcases List.mem_append.mp h with hfirst | hrest
    · split at hfirst
      · rw [List.mem_singleton.mp hfirst, Nat.add_assoc]
        exact Nat.le_add_right _ _
      · contradiction
    · exact ih hrest

end Script
end Timed
end Gatehouse
