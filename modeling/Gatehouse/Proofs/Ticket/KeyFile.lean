import Gatehouse.Proofs.Storage.Replacement
import Gatehouse.Proofs.Ticket.Rotation

namespace Gatehouse.Ticket

open Storage

theorem chunks_flatMap_secret (keys : List Key) :
    Bytes.chunks keyLength (keys.flatMap Key.secret) = keys.map Key.secret := by
  induction keys with
  | nil =>
    rw [List.flatMap_nil, Bytes.chunks, dif_neg (by decide)]
    rfl
  | cons key rest ih =>
    have htake : (key.secret ++ rest.flatMap Key.secret).take keyLength = key.secret :=
      List.take_left' key.length_secret
    have hdrop : (key.secret ++ rest.flatMap Key.secret).drop keyLength =
        rest.flatMap Key.secret := List.drop_left' key.length_secret
    have hwhole : 0 < keyLength ∧ key.secret.length = keyLength := ⟨by decide, key.length_secret⟩
    rw [List.flatMap_cons, Bytes.chunks, htake, hdrop, dif_pos hwhole, ih, List.map_cons]

theorem length_flatMap_secret (keys : List Key) :
    (keys.flatMap Key.secret).length = keys.length * keyLength := by
  induction keys with
  | nil => simp
  | cons key rest ih =>
    rw [List.flatMap_cons, List.length_append, ih, key.length_secret, List.length_cons,
      Nat.add_mul, Nat.one_mul, Nat.add_comm]

theorem Key.ofBytes?_secret (key : Key) : Key.ofBytes? key.secret = some key :=
  dif_pos key.length_secret

/-- Keys are read back from their bytes, all of them and in their order. -/
theorem KeyList.ofBytes_flatMap_secret (keys : List Key) :
    KeyList.ofBytes (keys.flatMap Key.secret) =
      (KeyList.ofList? keys).elim (.error .empty) .ok := by
  have heven : (keys.flatMap Key.secret).length % keyLength = 0 := by
    rw [length_flatMap_secret, Nat.mul_mod_left]
  have hsome : Key.ofBytes? ∘ Key.secret = some := funext Key.ofBytes?_secret
  have hkeys : (keys.map Key.secret).filterMap Key.ofBytes? = keys := by
    rw [List.filterMap_map, hsome, List.filterMap_some]
  rw [ofBytes, if_neg (by simpa using heven), chunks_flatMap_secret, hkeys]
  cases KeyList.ofList? keys <;> rfl

@[simp] theorem KeyList.ofBytes_toBytes (keys : KeyList) :
    KeyList.ofBytes keys.toBytes = .ok keys :=
  KeyList.ofBytes_flatMap_secret keys.toList

/-- Bytes of whole keys are the bytes of some keys. -/
theorem exists_keys {blob : Bytes} {n : Nat} (h : blob.length = n * keyLength) :
    ∃ keys : List Key, blob = keys.flatMap Key.secret := by
  induction n generalizing blob with
  | zero =>
    rw [Nat.zero_mul, List.length_eq_zero_iff] at h
    exact ⟨[], h⟩
  | succ n ih =>
    have hfirst : (blob.take keyLength).length = keyLength := by
      rw [List.length_take, h, Nat.add_mul, Nat.one_mul, Nat.min_eq_left (Nat.le_add_left _ _)]
    have hrest : (blob.drop keyLength).length = n * keyLength := by
      rw [List.length_drop, h, Nat.add_mul, Nat.one_mul, Nat.add_sub_cancel]
    obtain ⟨keys, hkeys⟩ := ih hrest
    exact ⟨⟨blob.take keyLength, hfirst⟩ :: keys, by
      rw [List.flatMap_cons, ← hkeys, List.take_append_drop]⟩

/-- The bytes that are read as keys are those that are written for them. -/
theorem KeyList.ofBytes_eq_ok_iff {blob : Bytes} {keys : KeyList} :
    KeyList.ofBytes blob = .ok keys ↔ blob = keys.toBytes := by
  constructor
  · intro h
    have heven : blob.length % keyLength = 0 := by
      by_contra hne
      simp [ofBytes, hne] at h
    obtain ⟨all, rfl⟩ := exists_keys
      (Nat.div_mul_cancel (Nat.dvd_of_mod_eq_zero heven)).symm
    rw [KeyList.ofBytes_flatMap_secret] at h
    cases all with
    | nil => contradiction
    | cons newest older =>
      obtain rfl := Except.ok.inj h
      rfl
  · rintro rfl
    exact keys.ofBytes_toBytes

/-- The keys get into the file of a ring. -/
def persists (fails : Nat → Option Storage.Error) (path : String) (keys : KeyList) (disk : Disk) :
    Bool :=
  decide ((runSteps fails path (replacement [keys.toBytes]) disk).1 = .ok ())

/-- A file has the keys that got into it, and else what it had before. -/
theorem read_written {ring : Ring} {path : String} {maxKeys : Option Nat}
    (h : ring.mode = .file path maxKeys) (fails : Nat → Option Storage.Error) (disk : Disk) :
    (Keeper.written fails ring disk).read path =
      if persists fails path ring.keys disk then .ok ring.keys.toBytes else disk.read path := by
  simp only [Keeper.written, h, persists, decide_eq_true_eq]
  split
  next hok => simpa using (replaced_of_ok hok).content
  next hfail => exact (kept_of_ne_ok hfail).content

theorem persist_eq (path : String) (keys : KeyList) (disk : Disk) :
    persist path keys disk =
      ((runSteps noFailure path (replacement [keys.toBytes]) disk).1.mapError (⟨path, ·⟩),
        (runSteps noFailure path (replacement [keys.toBytes]) disk).2) := rfl

/-- Keys are written exactly if the tree allows it. -/
theorem persist_cases (path : String) (keys : KeyList) (disk : Disk) :
    (∃ disk', disk.Allows path ∧ persist path keys disk = (.ok (), disk') ∧
      Disk.Replaced path disk keys.toBytes disk') ∨
    (∃ cause disk', ¬ disk.Allows path ∧ persist path keys disk = (.error ⟨path, cause⟩, disk') ∧
      Disk.Kept path disk disk') := by
  have hiff : (runSteps noFailure path (replacement [keys.toBytes]) disk).1 = .ok () ↔ _ :=
    runSteps_replacement_ok_iff [keys.toBytes]
  rw [persist_eq]
  cases hresult : (runSteps noFailure path (replacement [keys.toBytes]) disk).1 with
  | ok u =>
    have hreplaced := replaced_of_ok hresult
    rw [List.flatten_singleton] at hreplaced
    exact .inl ⟨_, (hiff.mp hresult).2, rfl, hreplaced⟩
  | error cause =>
    refine .inr ⟨cause, _, fun hallows => ?_, rfl, kept_of_ne_ok (by simp [hresult])⟩
    have hok := hiff.mpr ⟨fun _ _ => rfl, hallows⟩
    simp [hresult] at hok

namespace Keeper

/-- The same ring at work, with another disk. -/
def onDisk (keeper : Keeper) (disk : Disk) : Keeper := { keeper with disk := disk }

/-- Whatever the disk is and does, a rotation leads to the same keys, counters and notices. -/
theorem rotateWith_onDisk (keeper : Keeper) (disk : Disk) (call call' : Call)
    (h : call'.fresh = call.fresh) :
    ∃ disk', (keeper.onDisk disk).rotateWith call'.fails call'.fresh =
      ((keeper.rotateWith call.fails call.fresh).1,
        (keeper.rotateWith call.fails call.fresh).2.onDisk disk') := by
  rw [h]
  unfold rotateWith
  have hring : (keeper.onDisk disk).ring = keeper.ring := rfl
  rw [hring]
  cases keeper.ring.next? call.fresh with
  | none => exact ⟨disk, rfl⟩
  | some next => exact ⟨written call'.fails next disk, rfl⟩

theorem run_onDisk (keeper : Keeper) (disk : Disk) {calls calls' : List Call}
    (h : calls'.map Call.fresh = calls.map Call.fresh) :
    ∃ disk', (keeper.onDisk disk).run calls' =
      ((keeper.run calls).1, (keeper.run calls).2.onDisk disk') := by
  induction calls generalizing keeper disk calls' with
  | nil =>
    obtain rfl : calls' = [] := by simpa using h
    exact ⟨disk, rfl⟩
  | cons call rest ih =>
    cases calls' with
    | nil => simp at h
    | cons call' rest' =>
      rw [List.map_cons, List.map_cons, List.cons.injEq] at h
      obtain ⟨disk₁, hstep⟩ := keeper.rotateWith_onDisk disk call call' h.1
      obtain ⟨disk₂, hrest⟩ := ih (keeper.rotateWith call.fails call.fresh).2 disk₁ h.2
      refine ⟨disk₂, ?_⟩
      simp only [run, hstep, hrest]

/-- Two rings at work with the same keys and the same disk, whoever listens to them. -/
structure Alike (keeper other : Keeper) : Prop where
  ring : other.ring = keeper.ring
  disk : other.disk = keeper.disk

theorem Alike.rotateWith {keeper other : Keeper} (h : Alike keeper other) (call : Call) :
    (other.rotateWith call.fails call.fresh).1 = (keeper.rotateWith call.fails call.fresh).1 ∧
      Alike (keeper.rotateWith call.fails call.fresh).2
        (other.rotateWith call.fails call.fresh).2 := by
  unfold Keeper.rotateWith
  rw [h.ring]
  cases keeper.ring.next? call.fresh with
  | none => exact ⟨rfl, h⟩
  | some next => exact ⟨rfl, rfl, by simp only [h.disk]⟩

/-- What a rotation of a ring with a file makes known, and what is in the file then. -/
theorem rotateWith_file {keeper : Keeper} {path : String} {maxKeys : Option Nat}
    (hmode : keeper.ring.mode = .file path maxKeys) (call : Call) {next : Keeper}
    (h : keeper.rotateWith call.fails call.fresh = (true, next)) :
    next.ring.mode = .file path maxKeys ∧
    next.ring.keys.toList = kept maxKeys (call.fresh :: keeper.ring.keys.toList) ∧
    next.metrics = keeper.metrics.countRotation ∧
    next.notices = keeper.notices ++ (List.range keeper.listeners).map (·, next.ring.keys) ∧
    next.disk.read path =
      if persists call.fails path next.ring.keys keeper.disk then .ok next.ring.keys.toBytes
      else keeper.disk.read path := by
  unfold rotateWith at h
  rcases keeper.ring.next?_cases call.fresh with ⟨-, hnone⟩ | ⟨ring, -, hsome, hring, hkeys⟩
  · simp [hnone] at h
  · rw [hsome, Prod.mk.injEq] at h
    obtain ⟨-, rfl⟩ := h
    rw [hmode] at hring hkeys
    exact ⟨hring, hkeys, rfl, rfl, read_written hring call.fails keeper.disk⟩

end Keeper

/-- Wherever the writing of a key file ends, the file has its old content or all of the new keys, and
nothing but the file and its sibling has changed. A write that breaks off is one of which only the
first chunks are written. The ring that has it written is not told apart from
one for which it went otherwise, by its keys, its answers, its counters or its notices. -/
theorem key_file_is_replaced_or_kept (path : String) (keys : KeyList) (disk : Disk) :
    (∀ (fails : Nat → Option Storage.Error) (chunks : List Bytes) (n : Nat),
      chunks.flatten = keys.toBytes →
      ∀ result disk', runSteps fails path ((replacement chunks).take n) disk = (result, disk') →
        (disk'.read path = disk.read path ∨ disk'.read path = .ok keys.toBytes) ∧
        (∀ e, result = .error e → disk'.read path = disk.read path) ∧
        (result = .ok () → (replacement chunks).length ≤ n →
          disk'.read path = .ok keys.toBytes) ∧
        ∀ place, ¬ disk.LeadsTo path place → ¬ disk.LeadsTo (sibling path) place →
          disk'.node? place = disk.node? place) ∧
    (∀ disk', persist path keys disk = (.ok (), disk') →
      disk'.read path = .ok keys.toBytes) ∧
    (∀ e disk', persist path keys disk = (.error e, disk') →
      e.path = path ∧ disk'.read path = disk.read path) ∧
    ((persist path keys disk).1 = .ok () ↔ disk.Allows path) ∧
    (∀ (keeper next : Keeper) (maxKeys : Option Nat) (call : Call),
      keeper.ring.mode = .file path maxKeys →
      keeper.rotateWith call.fails call.fresh = (true, next) →
        next.ring.keys.toList = kept maxKeys (call.fresh :: keeper.ring.keys.toList) ∧
        next.metrics = keeper.metrics.countRotation ∧
        next.notices = keeper.notices ++ (List.range keeper.listeners).map (·, next.ring.keys) ∧
        next.disk.read path =
          if persists call.fails path next.ring.keys keeper.disk then .ok next.ring.keys.toBytes
          else keeper.disk.read path) ∧
    (∀ (keeper : Keeper) (other : Disk) (calls calls' : List Call),
      calls'.map Call.fresh = calls.map Call.fresh →
        (keeper.onDisk other).answers calls' = keeper.answers calls ∧
        ∃ other', (keeper.onDisk other).after calls' = (keeper.after calls).onDisk other') := by
  refine ⟨fun fails chunks n hchunks result disk' hrun => ?_, fun disk' hok => ?_,
    fun e disk' herror => ?_, ?_, fun keeper next maxKeys call hmode hrotate => ?_,
    fun keeper other calls calls' hfresh => ?_⟩
  · have hreached := runSteps_replacement fails path chunks n disk
    rw [hrun, hchunks] at hreached
    cases hreached with
    | stopped kept unfinished =>
      refine ⟨.inl kept.content, fun _ _ => kept.content, fun hok hall => ?_, kept.confined.rest⟩
      rw [length_replacement] at hall
      have hleft := unfinished hok
      omega
    | done replaced _ =>
      exact ⟨.inr replaced.content, fun _ he => by simp at he, fun _ _ => replaced.content,
        replaced.confined.rest⟩
  · rcases persist_cases path keys disk with ⟨_, -, hcase, hdone⟩ | ⟨cause, _, -, hcase, -⟩
    · obtain rfl := congrArg Prod.snd (hcase.symm.trans hok)
      exact hdone.content
    · exact absurd (congrArg Prod.fst (hcase.symm.trans hok)) (by simp)
  · rcases persist_cases path keys disk with ⟨_, -, hcase, -⟩ | ⟨cause, _, -, hcase, hkept⟩
    · exact absurd (congrArg Prod.fst (hcase.symm.trans herror)) (by simp)
    · obtain ⟨he, rfl⟩ := Prod.mk.inj (hcase.symm.trans herror)
      obtain rfl := Except.error.inj he
      exact ⟨rfl, hkept.content⟩
  · rcases persist_cases path keys disk with ⟨_, hallows, hcase, -⟩ | ⟨cause, _, hnot, hcase, -⟩
    · simp [hcase, hallows]
    · simp [hcase, hnot]
  · exact (Keeper.rotateWith_file hmode call hrotate).2
  · obtain ⟨other', hrun⟩ := keeper.run_onDisk other hfresh
    exact ⟨by rw [Keeper.answers, hrun]; rfl, other', by rw [Keeper.after, hrun]; rfl⟩

end Gatehouse.Ticket
