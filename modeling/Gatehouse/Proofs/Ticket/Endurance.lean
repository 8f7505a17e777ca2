import Gatehouse.Lifecycle.Startup
import Gatehouse.Proofs.Ticket.Reload
import Gatehouse.Settings.Validation

namespace Gatehouse.Ticket

open Storage

/-- No more than one key stays in the ring after a rotation. -/
def Mode.KeepsOne : Mode → Prop
  | .file _ (some m) => m ≤ 1
  | _ => False

theorem Mode.two_le_length_turned {mode : Mode} (h : ¬ mode.KeepsOne) (fresh : Key)
    {keys : List Key} (hkeys : 2 ≤ keys.length) : 2 ≤ (mode.turned fresh keys).length := by
  cases mode with
  | inMemory => rwa [turned, List.length_rotate]
  | file path maxKeys =>
    cases maxKeys with
    | none =>
      simp only [turned, kept, List.length_cons]
      omega
    | some m =>
      simp only [KeepsOne] at h
      simp only [turned, kept, List.length_take, List.length_cons]
      omega

theorem Mode.length_turned_of_one {mode : Mode} (h : mode.KeepsOne) (fresh : Key)
    (keys : List Key) : (mode.turned fresh keys).length = 1 := by
  cases mode with
  | inMemory => contradiction
  | file path maxKeys =>
    cases maxKeys with
    | none => contradiction
    | some m =>
      simp only [KeepsOne] at h
      simp only [turned, kept, List.length_take, List.length_cons]
      omega

namespace Keeper

theorem size_rotateWith {keeper : Keeper} {call : Call} (h : 2 ≤ keeper.ring.keys.size) :
    (keeper.rotateWith call.fails call.fresh).2.ring.keys.size =
      (keeper.ring.mode.turned call.fresh keeper.ring.keys.toList).length := by
  rcases keeper.rotateWith_cases call.fails call.fresh with ⟨hfew, -⟩ | ⟨-, -, -, hkeys⟩
  · omega
  · rw [← KeyList.length_toList, hkeys]

theorem run_of_one {keeper : Keeper} (h : keeper.ring.keys.size < 2) (calls : List Call) :
    keeper.after calls = keeper ∧ keeper.answers calls = List.replicate calls.length false := by
  induction calls with
  | nil => exact ⟨rfl, rfl⟩
  | cons call rest ih =>
    rcases keeper.rotateWith_cases call.fails call.fresh with ⟨-, hskip⟩ | ⟨hmany, -⟩
    · rw [after_cons, answers_cons, hskip, ih.1, ih.2]
      exact ⟨rfl, rfl⟩
    · omega

theorem two_le_size_of_mem {keeper : Keeper} {calls : List Call}
    (h : true ∈ keeper.answers calls) : 2 ≤ keeper.ring.keys.size := by
  apply Nat.le_of_not_lt
  intro hfew
  rw [(run_of_one hfew calls).2] at h
  exact absurd (List.eq_of_mem_replicate h) (by decide)

/-- The first rotation of a ring that keeps one key is its last. -/
theorem size_after_of_one {keeper : Keeper} (hmode : keeper.ring.mode.KeepsOne) {calls : List Call}
    (h : true ∈ keeper.answers calls) : (keeper.after calls).ring.keys.size = 1 := by
  cases calls with
  | nil => contradiction
  | cons call rest =>
    have hsize : (keeper.rotateWith call.fails call.fresh).2.ring.keys.size = 1 := by
      rw [size_rotateWith (two_le_size_of_mem h)]
      exact Mode.length_turned_of_one hmode call.fresh _
    rw [after_cons, (run_of_one (by omega) rest).1]
    exact hsize

/-- There is something to rotate into, and there will be. -/
structure Lasting (keeper : Keeper) : Prop where
  mode : ¬ keeper.ring.mode.KeepsOne
  size : 2 ≤ keeper.ring.keys.size

theorem Lasting.rotateWith {keeper : Keeper} (h : keeper.Lasting) (call : Call) :
    (keeper.rotateWith call.fails call.fresh).2.Lasting := by
  have hsame : (keeper.rotateWith call.fails call.fresh).2.ring.mode = keeper.ring.mode :=
    keeper.mode_after [call]
  refine ⟨by rw [hsame]; exact h.mode, ?_⟩
  rw [size_rotateWith h.size]
  apply Mode.two_le_length_turned h.mode
  rw [KeyList.length_toList]
  exact h.size

theorem Lasting.after {keeper : Keeper} (h : keeper.Lasting) (calls : List Call) :
    (keeper.after calls).Lasting := by
  induction calls generalizing keeper with
  | nil => exact h
  | cons call rest ih => exact ih (h.rotateWith call)

theorem Lasting.answers {keeper : Keeper} (h : keeper.Lasting) (calls : List Call) :
    keeper.answers calls = List.replicate calls.length true := by
  induction calls generalizing keeper with
  | nil => rfl
  | cons call rest ih =>
    rw [answers_cons, rotateWith_fst, decide_eq_true h.size, ih (h.rotateWith call)]
    rfl

/-- The key that seals after a rotation: the next one round, or a fresh one. -/
theorem newest_rotateWith {keeper : Keeper} (h : 2 ≤ keeper.ring.keys.size) (call : Call) :
    some (keeper.rotateWith call.fails call.fresh).2.ring.keys.newest =
      match keeper.ring.mode with
      | .inMemory => keeper.ring.keys.toList[1]?
      | .file _ _ => some call.fresh := by
  rcases keeper.rotateWith_cases call.fails call.fresh with ⟨hfew, -⟩ | ⟨-, -, -, hkeys⟩
  · omega
  · have hfirst : some (keeper.rotateWith call.fails call.fresh).2.ring.keys.newest =
        (keeper.ring.mode.turned call.fresh keeper.ring.keys.toList)[0]? := by
      rw [← hkeys]
      rfl
    rw [hfirst]
    cases keeper.ring.mode with
    | inMemory =>
      have hlength : 2 ≤ keeper.ring.keys.toList.length := by rwa [KeyList.length_toList]
      have hnext : (0 + 1) % keeper.ring.keys.toList.length = 1 := Nat.mod_eq_of_lt (by omega)
      simp only [Mode.turned]
      rw [List.getElem?_rotate (by omega), hnext]
    | file path maxKeys =>
      cases maxKeys with
      | none => rfl
      | some m =>
        have hsome : 0 < max m 1 := by omega
        simp only [Mode.turned, kept, List.getElem?_take_of_lt hsome, List.getElem?_cons_zero]

/-- A ring that has rotated rotates at every later call, unless it keeps one key only, and seals with
the key that came in. One that keeps one key is left with it and has rotated for the last time. -/
theorem goes_on_unless_one_is_kept {keeper : Keeper} {before : List Call}
    (hturned : true ∈ keeper.answers before) (later : List Call) :
    (¬ keeper.ring.mode.KeepsOne →
      (keeper.after before).answers later = List.replicate later.length true ∧
      ∀ call : Call,
        some ((keeper.after (before ++ later)).rotateWith call.fails call.fresh).2.ring.keys.newest =
          match keeper.ring.mode with
          | .inMemory => (keeper.after (before ++ later)).ring.keys.toList[1]?
          | .file _ _ => some call.fresh) ∧
    (keeper.ring.mode.KeepsOne →
      (keeper.after (before ++ later)).ring.keys.size = 1 ∧
      (keeper.after before).answers later = List.replicate later.length false) := by
  constructor
  · intro hmode
    have hlasting : keeper.Lasting := ⟨hmode, two_le_size_of_mem hturned⟩
    refine ⟨(hlasting.after before).answers later, fun call => ?_⟩
    rw [newest_rotateWith (hlasting.after (before ++ later)).size, mode_after]
  · intro hmode
    have hone := size_after_of_one hmode hturned
    have hlater := run_of_one (by omega : (keeper.after before).ring.keys.size < 2) later
    rw [after_append, hlater.1]
    exact ⟨hone, hlater.2⟩

/-- A ring of two keys that keeps two. -/
theorem ofTwo_goes_on :
    true ∈ ofTwo.answers [⟨noFailure, keyOf 3⟩] ∧
    (ofTwo.after [⟨noFailure, keyOf 3⟩]).answers [⟨noFailure, keyOf 4⟩, ⟨noFailure, keyOf 5⟩] =
      [true, true] := by
  have hturned : true ∈ ofTwo.answers [⟨noFailure, keyOf 3⟩] := by decide
  have hmode : ¬ ofTwo.ring.mode.KeepsOne := by simp [ofTwo, start, Mode.KeepsOne]
  exact ⟨hturned, ((goes_on_unless_one_is_kept hturned _).1 hmode).1⟩

/-- Settings that pass and let a ring with a file keep one key. -/
def sparing : Settings := {
  sessionTickets := { keyFile := some "keys", maxKeys := some 1 }
  mimicry := { protocol := some .rdp } }

/-- With these settings the two keys of a file rotate once, and no more. -/
theorem sparing_stops :
    sparing.validate = .ok () ∧
    ∃ ring, Startup.buildRing sparing.sessionTickets (keyOf 5) ofTwo.disk = (.ok ring, ofTwo.disk) ∧
      (Keeper.start ring ofTwo.disk).answers [⟨noFailure, keyOf 3⟩, ⟨noFailure, keyOf 4⟩] =
        [true, false] := by
  have hread : ofTwo.disk.read "keys" = .ok ofTwo.ring.keys.toBytes := by decide
  exact ⟨rfl, _, Ring.load_of_read hread (some 1) (keyOf 5), rfl⟩

end Keeper
end Gatehouse.Ticket
