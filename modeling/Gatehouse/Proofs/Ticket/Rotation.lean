import Gatehouse.Ticket.Keeper
import Mathlib.Data.List.Rotate

namespace Gatehouse.Ticket

/-- Of keys in order, those that stay: all of them, or the first few and one at least. -/
def kept (maxKeys : Option Nat) (keys : List Key) : List Key :=
  match maxKeys with
  | none => keys
  | some m => keys.take (max m 1)

theorem kept_append_kept (maxKeys : Option Nat) (fresh keys : List Key) :
    kept maxKeys (fresh ++ kept maxKeys keys) = kept maxKeys (fresh ++ keys) := by
  cases maxKeys with
  | none => rfl
  | some m =>
    have hless : min (max m 1 - fresh.length) (max m 1) = max m 1 - fresh.length :=
      Nat.min_eq_left (Nat.sub_le _ _)
    simp only [kept, List.take_append, List.take_take, hless]

theorem toList_prepended (keys : KeyList) (fresh : Key) (maxKeys : Option Nat) :
    (keys.prepended fresh maxKeys).toList = kept maxKeys (fresh :: keys.toList) := by
  cases maxKeys with
  | none => exact keys.toList_prepended_none fresh
  | some m => exact keys.toList_prepended_some fresh m

theorem toList_shifted_eq_rotate (keys : KeyList) :
    keys.shifted.toList = keys.toList.rotate 1 := by
  rw [KeyList.toList_shifted, KeyList.toList, List.rotate_cons_succ, List.rotate_zero]

/-- The list that a rotation leads to, if there is one. -/
def Mode.turned (mode : Mode) (fresh : Key) (keys : List Key) : List Key :=
  match mode with
  | .inMemory => keys.rotate 1
  | .file _ maxKeys => kept maxKeys (fresh :: keys)

/-- A ring of one key stays as it is, and any other one turns. -/
theorem Ring.next?_cases (ring : Ring) (fresh : Key) :
    (ring.keys.size < 2 ∧ ring.next? fresh = none) ∨
    ∃ next, 2 ≤ ring.keys.size ∧ ring.next? fresh = some next ∧ next.mode = ring.mode ∧
      next.keys.toList = ring.mode.turned fresh ring.keys.toList := by
  unfold next?
  by_cases hsize : ring.keys.size < 2
  · rw [if_pos hsize]
    exact .inl ⟨hsize, rfl⟩
  · rw [if_neg hsize]
    refine .inr ?_
    cases ring.mode with
    | inMemory =>
      exact ⟨_, Nat.le_of_not_lt hsize, rfl, rfl, toList_shifted_eq_rotate ring.keys⟩
    | file path maxKeys =>
      exact ⟨_, Nat.le_of_not_lt hsize, rfl, rfl, toList_prepended ring.keys fresh maxKeys⟩

/-- A call for a rotation: how writing the file goes then, and the key that is made should one be
needed. -/
structure Call where
  fails : Nat → Option Storage.Error
  fresh : Key

namespace Keeper

/-- What a call can do to a ring at work. -/
theorem rotateWith_cases (keeper : Keeper) (fails : Nat → Option Storage.Error) (fresh : Key) :
    (keeper.ring.keys.size < 2 ∧ keeper.rotateWith fails fresh = (false, keeper)) ∨
    (2 ≤ keeper.ring.keys.size ∧ (keeper.rotateWith fails fresh).1 = true ∧
      (keeper.rotateWith fails fresh).2.ring.mode = keeper.ring.mode ∧
      (keeper.rotateWith fails fresh).2.ring.keys.toList =
        keeper.ring.mode.turned fresh keeper.ring.keys.toList) := by
  unfold rotateWith
  rcases keeper.ring.next?_cases fresh with ⟨hsize, hnext⟩ | ⟨next, hsize, hnext, hmode, hkeys⟩
  · rw [hnext]
    exact .inl ⟨hsize, rfl⟩
  · rw [hnext]
    exact .inr ⟨hsize, rfl, hmode, hkeys⟩

/-- The answers to calls, and the ring at work after them. -/
def run (keeper : Keeper) : List Call → List Bool × Keeper
  | [] => ([], keeper)
  | call :: rest =>
    let (done, keeper) := keeper.rotateWith call.fails call.fresh
    let (answers, keeper) := keeper.run rest
    (done :: answers, keeper)

def answers (keeper : Keeper) (calls : List Call) : List Bool := (keeper.run calls).1

def after (keeper : Keeper) (calls : List Call) : Keeper := (keeper.run calls).2

/-- The fresh keys of the calls that rotated, in order. -/
def fresh (keeper : Keeper) (calls : List Call) : List Key :=
  (calls.zip (keeper.answers calls)).filterMap fun (call, done) =>
    if done then some call.fresh else none

section Cons
variable (keeper : Keeper) (call : Call) (rest : List Call)

@[simp] theorem answers_cons : keeper.answers (call :: rest) =
    (keeper.rotateWith call.fails call.fresh).1 ::
      (keeper.rotateWith call.fails call.fresh).2.answers rest := rfl

@[simp] theorem after_cons : keeper.after (call :: rest) =
    (keeper.rotateWith call.fails call.fresh).2.after rest := rfl

theorem fresh_cons_of_skipped
    (h : keeper.rotateWith call.fails call.fresh = (false, keeper)) :
    keeper.fresh (call :: rest) = keeper.fresh rest := by
  simp [fresh, h]

theorem fresh_cons_of_done (h : (keeper.rotateWith call.fails call.fresh).1 = true) :
    keeper.fresh (call :: rest) =
      call.fresh :: (keeper.rotateWith call.fails call.fresh).2.fresh rest := by
  simp [fresh, h]

end Cons

theorem after_append (keeper : Keeper) (before later : List Call) :
    keeper.after (before ++ later) = (keeper.after before).after later := by
  induction before generalizing keeper with
  | nil => rfl
  | cons call rest ih => exact ih _

theorem fresh_append (keeper : Keeper) (before later : List Call) :
    keeper.fresh (before ++ later) =
      keeper.fresh before ++ (keeper.after before).fresh later := by
  induction before generalizing keeper with
  | nil => rfl
  | cons call rest ih =>
    rw [List.cons_append]
    rcases keeper.rotateWith_cases call.fails call.fresh with ⟨-, hskip⟩ | ⟨-, hdone, -, -⟩
    · rw [keeper.fresh_cons_of_skipped call _ hskip, keeper.fresh_cons_of_skipped call _ hskip, ih,
        after_cons, hskip]
    · rw [keeper.fresh_cons_of_done call _ hdone, keeper.fresh_cons_of_done call _ hdone, ih,
        after_cons, List.cons_append]

@[simp] theorem mode_after (keeper : Keeper) (calls : List Call) :
    (keeper.after calls).ring.mode = keeper.ring.mode := by
  induction calls generalizing keeper with
  | nil => rfl
  | cons call rest ih =>
    rw [after_cons, ih]
    rcases keeper.rotateWith_cases call.fails call.fresh with ⟨-, hskip⟩ | ⟨-, -, hmode, -⟩
    · rw [hskip]
    · exact hmode

theorem length_fresh (keeper : Keeper) (calls : List Call) :
    (keeper.fresh calls).length = (keeper.answers calls).count true := by
  induction calls generalizing keeper with
  | nil => rfl
  | cons call rest ih =>
    rcases keeper.rotateWith_cases call.fails call.fresh with ⟨-, hskip⟩ | ⟨-, hdone, -, -⟩
    · rw [keeper.fresh_cons_of_skipped call rest hskip, ih, answers_cons, hskip]
      simp
    · rw [keeper.fresh_cons_of_done call rest hdone, List.length_cons, ih, answers_cons, hdone]
      simp

/-- Every call goes one key further. -/
theorem toList_rotateWith_inMemory {keeper : Keeper} (h : keeper.ring.mode = .inMemory)
    (call : Call) : (keeper.rotateWith call.fails call.fresh).2.ring.keys.toList =
      keeper.ring.keys.toList.rotate 1 := by
  rcases keeper.rotateWith_cases call.fails call.fresh with ⟨hsize, hskip⟩ | ⟨-, -, -, hkeys⟩
  · rw [hskip]
    -- A ring of one key stays as it is, and going round in one key is staying as well.
    have hone : keeper.ring.keys.toList.length = 1 := by
      rw [KeyList.length_toList]
      simp only [KeyList.size] at hsize ⊢
      omega
    rw [← List.rotate_mod, hone, Nat.mod_self, List.rotate_zero]
  · rw [hkeys, h]
    rfl

theorem toList_after_inMemory {keeper : Keeper} (h : keeper.ring.mode = .inMemory)
    (calls : List Call) : (keeper.after calls).ring.keys.toList =
      keeper.ring.keys.toList.rotate calls.length := by
  induction calls generalizing keeper with
  | nil => simp [after, run]
  | cons call rest ih =>
    have hmode : (keeper.rotateWith call.fails call.fresh).2.ring.mode = .inMemory :=
      (keeper.mode_after [call]).trans h
    rw [after_cons, ih hmode, toList_rotateWith_inMemory h, List.rotate_rotate, List.length_cons,
      Nat.add_comm]

theorem rotateWith_fst (keeper : Keeper) (call : Call) :
    (keeper.rotateWith call.fails call.fresh).1 = decide (2 ≤ keeper.ring.keys.size) := by
  rcases keeper.rotateWith_cases call.fails call.fresh with ⟨hsize, hskip⟩ | ⟨hsize, hdone, -, -⟩
  · rw [hskip]
    simpa using hsize
  · rw [hdone]
    simpa using hsize

theorem answers_inMemory {keeper : Keeper} (h : keeper.ring.mode = .inMemory)
    (calls : List Call) : keeper.answers calls =
      List.replicate calls.length (decide (2 ≤ keeper.ring.keys.size)) := by
  induction calls generalizing keeper with
  | nil => rfl
  | cons call rest ih =>
    have hmode : (keeper.rotateWith call.fails call.fresh).2.ring.mode = .inMemory :=
      (keeper.mode_after [call]).trans h
    have hsize : (keeper.rotateWith call.fails call.fresh).2.ring.keys.size =
        keeper.ring.keys.size := by
      rw [← KeyList.length_toList, toList_rotateWith_inMemory h, List.length_rotate,
        KeyList.length_toList]
    rw [answers_cons, ih hmode, rotateWith_fst, hsize, List.length_cons, List.replicate_succ]

theorem toList_after_file {keeper : Keeper} {path : String} {maxKeys : Option Nat}
    (h : keeper.ring.mode = .file path maxKeys) (calls : List Call) :
    (keeper.after calls).ring.keys.toList =
      if keeper.fresh calls = [] then keeper.ring.keys.toList
      else kept maxKeys ((keeper.fresh calls).reverse ++ keeper.ring.keys.toList) := by
  induction calls generalizing keeper with
  | nil => rfl
  | cons call rest ih =>
    rcases keeper.rotateWith_cases call.fails call.fresh with ⟨-, hskip⟩ | ⟨-, hdone, hmode, hkeys⟩
    · rw [keeper.fresh_cons_of_skipped call rest hskip, after_cons, hskip]
      exact ih h
    · rw [keeper.fresh_cons_of_done call rest hdone, after_cons, ih (hmode.trans h), hkeys, h,
        if_neg (List.cons_ne_nil _ _), List.reverse_cons, List.append_assoc]
      by_cases hnone : (keeper.rotateWith call.fails call.fresh).2.fresh rest = []
      · rw [if_pos hnone, hnone]
        rfl
      · rw [if_neg hnone]
        -- What this rotation drops, the later ones would have dropped as well.
        exact kept_append_kept maxKeys _ (call.fresh :: keeper.ring.keys.toList)

/-- The keys after any calls, whatever became of the file. There always is a newest key, and
shifting the list only moves it to the back. -/
theorem keys_after_calls (keeper : Keeper) (calls : List Call) :
    (keeper.ring.mode = .inMemory →
      (keeper.after calls).ring.keys.toList =
        keeper.ring.keys.toList.rotate (calls.length % keeper.ring.keys.toList.length) ∧
      keeper.answers calls =
        List.replicate calls.length (decide (2 ≤ keeper.ring.keys.toList.length)) ∧
      (calls.length = keeper.ring.keys.toList.length →
        (keeper.after calls).ring.keys.toList = keeper.ring.keys.toList)) ∧
    (∀ path, keeper.ring.mode = .file path none →
      (keeper.after calls).ring.keys.toList =
        (keeper.fresh calls).reverse ++ keeper.ring.keys.toList) ∧
    (∀ path m, keeper.ring.mode = .file path (some m) →
      (keeper.after calls).ring.keys.toList =
        if keeper.fresh calls = [] then keeper.ring.keys.toList
        else ((keeper.fresh calls).reverse ++ keeper.ring.keys.toList).take (max m 1)) ∧
    (keeper.fresh calls).length = (keeper.answers calls).count true ∧
    (∀ call : Call, ((keeper.after calls).rotateWith call.fails call.fresh).1 = false →
      ((keeper.after calls).rotateWith call.fails call.fresh).2 = keeper.after calls) ∧
    1 ≤ (keeper.after calls).ring.keys.toList.length ∧
    (keeper.after calls).ring.keys.toList[0]? = some (keeper.after calls).ring.keys.newest ∧
    (keeper.after calls).ring.keys.shifted.toList =
      (keeper.after calls).ring.keys.toList.rotate 1 := by
  refine ⟨?_, ?_, fun _ _ h => toList_after_file h calls, keeper.length_fresh calls, ?_,
    Nat.succ_le_succ (Nat.zero_le _), rfl, toList_shifted_eq_rotate _⟩
  · intro h
    have hkeys := toList_after_inMemory h calls
    refine ⟨by rw [hkeys, List.rotate_mod], by rw [answers_inMemory h, KeyList.length_toList], ?_⟩
    intro hround
    rw [hkeys, hround, List.rotate_length]
  · intro path h
    rw [toList_after_file h]
    split
    next hnone => rw [hnone]; rfl
    next => rfl
  · intro call hfalse
    rcases (keeper.after calls).rotateWith_cases call.fails call.fresh with
      ⟨-, hskip⟩ | ⟨-, hdone, -, -⟩
    · rw [hskip]
    · rw [hdone] at hfalse
      contradiction

end Keeper
end Gatehouse.Ticket
