import Gatehouse.KeyTool.Run
import Gatehouse.Proofs.Ticket.KeyFile

namespace Gatehouse.Ticket

open Storage

namespace Ring
variable {path : String} {disk disk' : Disk}

/-- A file of keys gives a ring of these keys and stays as it is. -/
theorem load_of_read {keys : KeyList} (h : disk.read path = .ok keys.toBytes)
    (maxKeys : Option Nat) (spare : Key) :
    load (.file path maxKeys) spare disk = (.ok ⟨.file path maxKeys, keys⟩, disk) := by
  simp only [load, loadKeys, h, KeyList.ofBytes_toBytes]
  rfl

theorem load_of_present (h : disk.read path ≠ .error .notFound) (maxKeys : Option Nat)
    (fresh : Key) : (load (.file path maxKeys) fresh disk).2 = disk := by
  cases hread : disk.read path with
  | ok blob => simp only [load, loadKeys, hread]
  | error e =>
    cases e with
    | notFound => exact absurd hread h
    | _ => simp only [load, loadKeys, hread]

/-- A missing file is made with one key if the tree allows it, and else is still missing. -/
theorem load_of_missing (h : disk.read path = .error .notFound) (maxKeys : Option Nat)
    (fresh : Key) :
    (∃ disk', disk.Allows path ∧
      load (.file path maxKeys) fresh disk = (.ok ⟨.file path maxKeys, ⟨fresh, []⟩⟩, disk') ∧
      Disk.Replaced path disk (KeyList.mk fresh []).toBytes disk') ∨
    (∃ e disk', ¬ disk.Allows path ∧ load (.file path maxKeys) fresh disk = (.error e, disk') ∧
      Disk.Kept path disk disk') := by
  simp only [load, loadKeys, h]
  rcases persist_cases path ⟨fresh, []⟩ disk with
    ⟨disk', hallows, hok, hdone⟩ | ⟨cause, disk', hnot, herror, hkept⟩
  · rw [hok]
    exact .inl ⟨disk', hallows, rfl, hdone⟩
  · rw [herror]
    exact .inr ⟨_, disk', hnot, rfl, hkept⟩

/-- Once a ring is loaded, its keys are in its file. -/
theorem of_load {maxKeys : Option Nat} {fresh : Key} {ring : Ring}
    (h : load (.file path maxKeys) fresh disk = (.ok ring, disk')) :
    ring.mode = .file path maxKeys ∧ disk'.read path = .ok ring.keys.toBytes := by
  cases hread : disk.read path with
  | ok blob =>
    simp only [load, loadKeys, hread, Prod.mk.injEq] at h
    obtain ⟨hring, rfl⟩ := h
    cases hkeys : KeyList.ofBytes blob with
    | error e => simp [hkeys, Except.map, Except.mapError] at hring
    | ok keys =>
      simp only [hkeys, Except.mapError, Except.map, Except.ok.injEq] at hring
      subst hring
      exact ⟨rfl, by rw [hread, KeyList.ofBytes_eq_ok_iff.mp hkeys]⟩
  | error e =>
    cases e with
    | notFound =>
      rcases load_of_missing hread maxKeys fresh with
        ⟨made, -, hload, hdone⟩ | ⟨e, same, -, hload, -⟩
      · rw [hload, Prod.mk.injEq, Except.ok.injEq] at h
        obtain ⟨rfl, rfl⟩ := h
        exact ⟨rfl, hdone.content⟩
      · simp [hload] at h
    | _ => simp [load, loadKeys, hread, Except.map] at h

end Ring

namespace Keeper

/-- A call rotates, and gets the keys into the file. -/
def saves (keeper : Keeper) (call : Call) : Bool :=
  match keeper.ring.mode, keeper.ring.next? call.fresh with
  | .file path _, some next => persists call.fails path next.keys keeper.disk
  | _, _ => false

/-- The keys that got into the file, in order. -/
def saved (keeper : Keeper) : List Call → List KeyList
  | [] => []
  | call :: rest =>
    let next := (keeper.rotateWith call.fails call.fresh).2
    if keeper.saves call then next.ring.keys :: next.saved rest else next.saved rest

variable {keeper : Keeper} {path : String} {maxKeys : Option Nat}

theorem read_rotateWith (hmode : keeper.ring.mode = .file path maxKeys) {last : KeyList}
    (hread : keeper.disk.read path = .ok last.toBytes) (call : Call) :
    (keeper.rotateWith call.fails call.fresh).2.disk.read path =
      .ok (if keeper.saves call then (keeper.rotateWith call.fails call.fresh).2.ring.keys
        else last).toBytes := by
  unfold rotateWith saves
  rw [hmode]
  rcases keeper.ring.next?_cases call.fresh with ⟨-, hnone⟩ | ⟨next, -, hsome, hnext, -⟩
  · rw [hnone]
    exact hread
  · rw [hsome]
    refine (read_written (hnext.trans hmode) call.fails keeper.disk).trans ?_
    split
    next => simp
    next => simp [hread]

theorem read_after (hmode : keeper.ring.mode = .file path maxKeys) {last : KeyList}
    (hread : keeper.disk.read path = .ok last.toBytes) (calls : List Call) :
    (keeper.after calls).disk.read path = .ok ((keeper.saved calls).getLastD last).toBytes := by
  -- What was got into the file last is what the rest of the calls starts from.
  induction calls generalizing keeper last with
  | nil => exact hread
  | cons call rest ih =>
    have hmode' : (keeper.rotateWith call.fails call.fresh).2.ring.mode = .file path maxKeys :=
      (keeper.mode_after [call]).trans hmode
    rw [after_cons, ih hmode' (read_rotateWith hmode hread call), saved]
    split
    next => rw [List.getLastD_cons]
    next => rfl

/-- Every call that rotates gets its keys into the file. -/
def savesAll (keeper : Keeper) : List Call → Bool
  | [] => true
  | call :: rest =>
    (!(keeper.rotateWith call.fails call.fresh).1 || keeper.saves call) &&
      (keeper.rotateWith call.fails call.fresh).2.savesAll rest

/-- What each call answered, and the keys in force after it. -/
def history (keeper : Keeper) : List Call → List (Bool × KeyList)
  | [] => []
  | call :: rest =>
    let (done, next) := keeper.rotateWith call.fails call.fresh
    (done, next.ring.keys) :: next.history rest

/-- A ring that is set up from a file and put to work, with a key to spare should there be no file. -/
def reload (path : String) (maxKeys : Option Nat) (disk : Disk) (spare : Key) :
    Except LoadError Keeper :=
  match Ring.load (.file path maxKeys) spare disk with
  | (.ok ring, disk) => .ok (.start ring disk)
  | (.error e, _) => .error e

/-- The history of a ring that is set up again in front of those calls for which there is a key to
spare. -/
def historyWithReloads (path : String) (maxKeys : Option Nat) (keeper : Keeper) :
    List (Option Key × Call) → Except LoadError (List (Bool × KeyList))
  | [] => .ok []
  | (spare, call) :: rest =>
    match spare.elim (.ok keeper) (reload path maxKeys keeper.disk) with
    | .error e => .error e
    | .ok keeper =>
      let (done, next) := keeper.rotateWith call.fails call.fresh
      (historyWithReloads path maxKeys next rest).map ((done, next.ring.keys) :: ·)

/-- The file has the keys in force. -/
structure UpToDate (path : String) (maxKeys : Option Nat) (keeper : Keeper) : Prop where
  mode : keeper.ring.mode = .file path maxKeys
  read : keeper.disk.read path = .ok keeper.ring.keys.toBytes

namespace UpToDate

theorem load (h : UpToDate path maxKeys keeper) (spare : Key) :
    Ring.load (.file path maxKeys) spare keeper.disk = (.ok keeper.ring, keeper.disk) := by
  rw [Ring.load_of_read h.read, ← h.mode]

theorem reload (h : UpToDate path maxKeys keeper) (spare : Key) :
    Keeper.reload path maxKeys keeper.disk spare = .ok (.start keeper.ring keeper.disk) := by
  rw [Keeper.reload, h.load]

theorem rotateWith (h : UpToDate path maxKeys keeper) {call : Call}
    (hsaves : (keeper.rotateWith call.fails call.fresh).1 = true → keeper.saves call = true) :
    UpToDate path maxKeys (keeper.rotateWith call.fails call.fresh).2 := by
  refine ⟨(keeper.mode_after [call]).trans h.mode, ?_⟩
  rcases keeper.rotateWith_cases call.fails call.fresh with ⟨-, hskip⟩ | ⟨-, hdone, -⟩
  · rw [hskip]
    exact h.read
  · rw [read_rotateWith h.mode h.read, if_pos (hsaves hdone)]

theorem after (h : UpToDate path maxKeys keeper) {calls : List Call}
    (hsaves : keeper.savesAll calls = true) : UpToDate path maxKeys (keeper.after calls) := by
  induction calls generalizing keeper with
  | nil => exact h
  | cons call rest ih =>
    simp only [savesAll, Bool.and_eq_true, Bool.or_eq_true, Bool.not_eq_true'] at hsaves
    refine ih (h.rotateWith fun hdone => ?_) hsaves.2
    simpa [hdone] using hsaves.1

/-- Setting the ring up again, here and there, changes nothing that can be seen. -/
theorem historyWithReloads_eq (h : UpToDate path maxKeys keeper) {other : Keeper}
    (hother : Alike keeper other) {turns : List (Option Key × Call)}
    (hsaves : keeper.savesAll (turns.map Prod.snd) = true) :
    historyWithReloads path maxKeys other turns = .ok (keeper.history (turns.map Prod.snd)) := by
  induction turns generalizing keeper other with
  | nil => rfl
  | cons turn rest ih =>
    obtain ⟨spare, call⟩ := turn
    simp only [List.map_cons, savesAll, Bool.and_eq_true, Bool.or_eq_true,
      Bool.not_eq_true'] at hsaves
    obtain ⟨again, hagain, halike⟩ : ∃ again, spare.elim (.ok other)
        (Keeper.reload path maxKeys other.disk) = .ok again ∧ Alike keeper again := by
      cases spare with
      | none => exact ⟨other, rfl, hother⟩
      | some key =>
        exact ⟨.start keeper.ring keeper.disk, by rw [Option.elim_some, hother.disk, h.reload], rfl,
          rfl⟩
    obtain ⟨hanswer, hnext⟩ := halike.rotateWith call
    have hsaved : UpToDate path maxKeys (keeper.rotateWith call.fails call.fresh).2 :=
      h.rotateWith fun hdone => by simpa [hdone] using hsaves.1
    simp only [historyWithReloads, hagain, List.map_cons, history, hanswer, hnext.ring,
      ih hsaved hnext hsaves.2]
    rfl

/-- A run of the key tool loads the keys of the file and rotates them as the ring itself would. -/
theorem rotateFile (h : UpToDate path maxKeys keeper) (entropy : KeyTool.Entropy) :
    KeyTool.rotateFile path maxKeys entropy keeper.disk =
      (.ok ((keeper.rotate (entropy.key 1)).1, (keeper.rotate (entropy.key 1)).2.ring.keys),
        (keeper.rotate (entropy.key 1)).2.disk) := by
  have halike : Alike keeper (.start keeper.ring keeper.disk) := ⟨rfl, rfl⟩
  obtain ⟨hanswer, hring, hdisk⟩ := halike.rotateWith ⟨noFailure, entropy.key 1⟩
  simp only [KeyTool.rotateFile, h.load, rotate, hanswer, hring, hdisk]

end UpToDate

/-- Between the ring and its file: loading spares a file that is there and makes a missing one with the
key it returns; after any calls the file has the keys that were last got into it, and loading gives
them; and if that are always the newest, a ring that is loaded again between any two calls, as the key
tool does, goes through the same lists with the same answers as one that lives on. -/
theorem file_follows_ring (path : String) (maxKeys : Option Nat) (fresh : Key) (disk : Disk) :
    (disk.read path ≠ .error .notFound →
      (Ring.load (.file path maxKeys) fresh disk).2 = disk) ∧
    (disk.read path = .error .notFound →
      ∀ result disk', Ring.load (.file path maxKeys) fresh disk = (result, disk') →
        (result.isOk = true ↔ disk.Allows path) ∧
        (∀ ring, result = .ok ring →
          ring.keys.toList = [fresh] ∧ disk'.read path = .ok fresh.secret) ∧
        ∀ e, result = .error e → disk'.read path = .error .notFound) ∧
    ∀ (keeper : Keeper) (calls : List Call),
      Ring.load (.file path maxKeys) fresh disk = (.ok keeper.ring, keeper.disk) →
        (keeper.after calls).disk.read path =
          .ok ((keeper.saved calls).getLastD keeper.ring.keys).toBytes ∧
        (∀ spare limit, Ring.load (.file path limit) spare (keeper.after calls).disk =
          (.ok ⟨.file path limit, (keeper.saved calls).getLastD keeper.ring.keys⟩,
            (keeper.after calls).disk)) ∧
        (keeper.savesAll calls = true →
          (∀ turns, turns.map Prod.snd = calls →
            historyWithReloads path maxKeys keeper turns = .ok (keeper.history calls)) ∧
          ∀ entropy, KeyTool.rotateFile path maxKeys entropy (keeper.after calls).disk =
            (.ok (((keeper.after calls).rotate (entropy.key 1)).1,
                ((keeper.after calls).rotate (entropy.key 1)).2.ring.keys),
              ((keeper.after calls).rotate (entropy.key 1)).2.disk)) := by
  refine ⟨fun h => Ring.load_of_present h maxKeys fresh, fun h result disk' hload => ?_,
    fun keeper calls hload => ?_⟩
  · rcases Ring.load_of_missing h maxKeys fresh with
      ⟨_, hallows, hmade, hdone⟩ | ⟨e, _, hnot, hfailed, hkept⟩
    · obtain ⟨rfl, rfl⟩ := Prod.mk.inj (hmade.symm.trans hload)
      refine ⟨by simp [Except.isOk, Except.toBool, hallows], fun ring hring => ?_, by simp⟩
      obtain rfl := Except.ok.inj hring
      exact ⟨rfl, by simpa [KeyList.toBytes, KeyList.toList] using hdone.content⟩
    · obtain ⟨rfl, rfl⟩ := Prod.mk.inj (hfailed.symm.trans hload)
      exact ⟨by simp [Except.isOk, Except.toBool, hnot], by simp,
        fun _ _ => hkept.content.trans h⟩
  · obtain ⟨hmode, hread⟩ := Ring.of_load hload
    have hstart : UpToDate path maxKeys keeper := ⟨hmode, hread⟩
    have hlast := read_after hmode hread calls
    refine ⟨hlast, fun spare limit => Ring.load_of_read hlast limit spare, fun hsaves => ?_⟩
    refine ⟨fun turns hturns => ?_, (hstart.after hsaves).rotateFile⟩
    subst hturns
    exact hstart.historyWithReloads_eq ⟨rfl, rfl⟩ hsaves

/-- The key of one byte and zeros. -/
def keyOf (b : UInt8) : Key := ⟨b :: List.replicate 31 0, rfl⟩

/-- A ring of two keys, which are in its file. -/
def ofTwo : Keeper :=
  .start ⟨.file "keys" (some 2), ⟨keyOf 1, [keyOf 2]⟩⟩
    ⟨[], [(["keys"], .file ((keyOf 1).secret ++ (keyOf 2).secret))]⟩

/-- A ring of two keys that rotates twice, and is set up again each time. -/
theorem ofTwo_reloaded :
    Ring.load (.file "keys" (some 2)) (keyOf 5) ofTwo.disk = (.ok ofTwo.ring, ofTwo.disk) ∧
    ofTwo.savesAll [⟨noFailure, keyOf 3⟩, ⟨noFailure, keyOf 4⟩] = true ∧
    historyWithReloads "keys" (some 2) ofTwo
        [(some (keyOf 5), ⟨noFailure, keyOf 3⟩), (some (keyOf 6), ⟨noFailure, keyOf 4⟩)] =
      .ok (ofTwo.history [⟨noFailure, keyOf 3⟩, ⟨noFailure, keyOf 4⟩]) := by
  have hread : ofTwo.disk.read "keys" = .ok ofTwo.ring.keys.toBytes := by decide
  have hload : Ring.load (.file "keys" (some 2)) (keyOf 5) ofTwo.disk = (.ok ofTwo.ring, ofTwo.disk) :=
    Ring.load_of_read hread (some 2) (keyOf 5)
  have hsaves : ofTwo.savesAll [⟨noFailure, keyOf 3⟩, ⟨noFailure, keyOf 4⟩] = true := by decide
  obtain ⟨-, -, hfollows⟩ := file_follows_ring "keys" (some 2) (keyOf 5) ofTwo.disk
  exact ⟨hload, hsaves, ((hfollows ofTwo _ hload).2.2 hsaves).1 _ rfl⟩

end Keeper
end Gatehouse.Ticket
