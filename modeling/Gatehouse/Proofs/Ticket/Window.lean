import Gatehouse.Proofs.Ticket.Rotation
import Gatehouse.Proofs.Ticket.Sealing
import Gatehouse.Ticket.Issue

namespace Gatehouse.Ticket

/-- No two of these keys share a name. -/
def Named (keys : List Key) : Prop := ∀ a ∈ keys, ∀ b ∈ keys, a.name = b.name → a = b

theorem Named.subset {keys others : List Key} (h : Named keys) (hsub : ∀ k ∈ others, k ∈ keys) :
    Named others :=
  fun a ha b hb => h a (hsub a ha) b (hsub b hb)

/-- Two keys that open one ticket have the name that stands in it. -/
theorem Named.eq_of_open? {keys : List Key} (h : Named keys) {a b : Key} (ha : a ∈ keys)
    (hb : b ∈ keys) {ticket state state' : Bytes} (hopen : a.open? ticket = some state)
    (hopen' : b.open? ticket = some state') : a = b := by
  obtain ⟨_, ⟨hname, _⟩, _⟩ := Key.open?_eq_some_iff.mp hopen
  obtain ⟨_, ⟨hname', _⟩, _⟩ := Key.open?_eq_some_iff.mp hopen'
  exact h a ha b hb (hname.trans hname'.symm)

/-- With different names, the order in which the keys are tried makes no difference. -/
theorem KeyList.open?_eq_some_iff {keys : KeyList} (h : Named keys.toList)
    {ticket state : Bytes} :
    keys.open? ticket = some state ↔ ∃ k ∈ keys.toList, k.open? ticket = some state := by
  constructor
  · intro hopen
    exact List.exists_of_findSome?_eq_some hopen
  · rintro ⟨k, hk, hopen⟩
    have hsome : (keys.open? ticket).isSome :=
      List.findSome?_isSome_iff.mpr ⟨k, hk, by rw [hopen]; rfl⟩
    obtain ⟨state', hfirst⟩ := Option.isSome_iff_exists.mp hsome
    obtain ⟨k', hk', hopen'⟩ := List.exists_of_findSome?_eq_some hfirst
    have hsame := h.eq_of_open? hk hk' hopen hopen'
    rw [← hsame, hopen] at hopen'
    rw [hfirst, ← hopen']

/-- A sealed ticket opens as long as its key is among those that are tried. -/
theorem KeyList.open?_sealWith {keys : KeyList} {key : Key} (h : Named (key :: keys.toList))
    {iv : Bytes} (hiv : iv.length = ivLength) (state : Bytes) :
    keys.open? (key.sealWith iv state) = if key ∈ keys.toList then some state else none := by
  have hown := key.open?_sealWith state hiv
  have hnamed : Named keys.toList := h.subset fun k hk => List.mem_cons_of_mem _ hk
  by_cases hmem : key ∈ keys.toList
  · rw [if_pos hmem]
    exact (KeyList.open?_eq_some_iff hnamed).mpr ⟨key, hmem, hown⟩
  · rw [if_neg hmem]
    cases hopen : keys.open? (key.sealWith iv state) with
    | none => rfl
    | some other =>
      obtain ⟨k, hk, hkopen⟩ := List.exists_of_findSome?_eq_some hopen
      have hsame := h.eq_of_open? List.mem_cons_self (List.mem_cons_of_mem _ hk) hown hkopen
      exact absurd (hsame ▸ hk) hmem

namespace Keeper

/-- The keys that a run makes. Going round in memory takes none. -/
def generated (keeper : Keeper) (calls : List Call) : List Key :=
  if keeper.ring.isFileBacked then keeper.fresh calls else []

theorem generated_of_file {keeper : Keeper} {path : String} {maxKeys : Option Nat}
    (h : keeper.ring.mode = .file path maxKeys) (calls : List Call) :
    keeper.generated calls = keeper.fresh calls := by
  rw [generated, Ring.isFileBacked, h]
  rfl

theorem generated_append (keeper : Keeper) (before later : List Call) :
    keeper.generated (before ++ later) =
      keeper.generated before ++ (keeper.after before).generated later := by
  have hfile : (keeper.after before).ring.isFileBacked = keeper.ring.isFileBacked := by
    simp only [Ring.isFileBacked, mode_after]
  rw [generated, generated, generated, hfile]
  by_cases hbacked : keeper.ring.isFileBacked = true
  · simp only [if_pos hbacked, fresh_append]
  · simp only [if_neg hbacked, List.append_nil]

/-- The keys of a run are told apart by their names, and a key that is made was never there
before. -/
structure Distinct (keeper : Keeper) (calls : List Call) : Prop where
  named : Named (keeper.ring.keys.toList ++ keeper.generated calls)
  unlike : (keeper.generated calls).Nodup
  fresh : ∀ k ∈ keeper.generated calls, k ∉ keeper.ring.keys.toList

/-- A ring holds no keys but those it had and those that were made. -/
theorem mem_of_mem_after {keeper : Keeper} {calls : List Call} {key : Key}
    (h : key ∈ (keeper.after calls).ring.keys.toList) :
    key ∈ keeper.ring.keys.toList ++ keeper.generated calls := by
  cases hmode : keeper.ring.mode with
  | inMemory =>
    rw [toList_after_inMemory hmode, List.mem_rotate] at h
    exact List.mem_append_left _ h
  | file path maxKeys =>
    rw [generated_of_file hmode]
    rw [toList_after_file hmode] at h
    by_cases hnone : keeper.fresh calls = []
    · rw [if_pos hnone] at h
      exact List.mem_append_left _ h
    · rw [if_neg hnone] at h
      have hmem : key ∈ (keeper.fresh calls).reverse ++ keeper.ring.keys.toList := by
        cases maxKeys with
        | none => exact h
        | some m => exact List.mem_of_mem_take h
      simpa [or_comm] using hmem

theorem Distinct.not_mem_generated {keeper : Keeper} {before later : List Call}
    (h : keeper.Distinct (before ++ later)) {key : Key}
    (hkey : key ∈ (keeper.after before).ring.keys.toList) :
    key ∉ (keeper.after before).generated later := by
  intro hmade
  have hsplit := keeper.generated_append before later
  have hunlike := h.unlike
  rw [hsplit] at hunlike
  rcases List.mem_append.mp (mem_of_mem_after hkey) with hold | hearly
  · exact h.fresh key (hsplit ▸ List.mem_append_right _ hmade) hold
  · exact (List.nodup_append.mp hunlike).2.2 key hearly key hmade rfl

/-- The newest key before a run is among the first keys after it until as many have come in. -/
theorem newest_mem_kept_iff {keys : KeyList} {fresh : List Key} (hother : keys.newest ∉ fresh)
    (m : Nat) :
    keys.newest ∈ kept (some m) (fresh.reverse ++ keys.toList) ↔ fresh.length < max m 1 := by
  rw [kept, List.take_append, List.mem_append, List.length_reverse]
  constructor
  · rintro (hin | hin)
    · exact absurd (List.mem_reverse.mp (List.mem_of_mem_take hin)) hother
    · by_contra hfull
      rw [Nat.sub_eq_zero_of_le (Nat.le_of_not_lt hfull), List.take_zero] at hin
      exact List.not_mem_nil hin
  · intro hroom
    obtain ⟨rest, hrest⟩ : ∃ rest, max m 1 - fresh.length = rest + 1 :=
      Nat.exists_eq_add_one.mpr (Nat.sub_pos_of_lt hroom)
    rw [hrest]
    exact .inr List.mem_cons_self

/-- Whether the key that was the newest is still in the ring after a run. -/
theorem newest_mem_after_iff (keeper : Keeper) (calls : List Call)
    (hother : keeper.ring.keys.newest ∉ keeper.generated calls) :
    keeper.ring.keys.newest ∈ (keeper.after calls).ring.keys.toList ↔
      ∀ path m, keeper.ring.mode = .file path (some m) →
        (keeper.answers calls).count true < max m 1 := by
  have hin : keeper.ring.keys.newest ∈ keeper.ring.keys.toList := List.mem_cons_self
  cases hmode : keeper.ring.mode with
  | inMemory =>
    rw [toList_after_inMemory hmode, List.mem_rotate]
    exact iff_of_true hin (by simp)
  | file path maxKeys =>
    rw [generated_of_file hmode] at hother
    rw [toList_after_file hmode, ← length_fresh]
    -- The limit takes effect with the first rotation only: before it, a ring may hold more keys.
    by_cases hnone : keeper.fresh calls = []
    · rw [if_pos hnone, hnone]
      refine iff_of_true hin ?_
      intro _ m _
      exact Nat.lt_of_lt_of_le Nat.zero_lt_one (Nat.le_max_right m 1)
    · rw [if_neg hnone]
      cases maxKeys with
      | none => exact iff_of_true (List.mem_append_right _ hin) (by simp)
      | some m =>
        rw [newest_mem_kept_iff hother]
        simp

/-- A ticket sealed at any point of a run opens at any later point to the state that it was made
of: always if the ring never drops a key, and otherwise until as many rotations have come after it
as the ring may keep keys. Whoever holds the keys of that time can open it for ever. In memory no
rotation makes a difference to what opens. -/
theorem ticket_opens_in_its_window (keeper : Keeper) (before later : List Call) (iv state : Bytes)
    (hiv : iv.length = ivLength) (hkeys : keeper.Distinct (before ++ later)) :
    (keeper.ring.mode = .inMemory →
      (keeper.after (before ++ later)).ring.redeem?
        ((keeper.after before).ring.issue iv state) = some state ∧
      ∀ ticket, (keeper.after (before ++ later)).ring.redeem? ticket =
        keeper.ring.redeem? ticket) ∧
    (∀ path, keeper.ring.mode = .file path none →
      (keeper.after (before ++ later)).ring.redeem?
        ((keeper.after before).ring.issue iv state) = some state) ∧
    (∀ path m, keeper.ring.mode = .file path (some m) →
      (keeper.after (before ++ later)).ring.redeem?
        ((keeper.after before).ring.issue iv state) =
          if ((keeper.after before).answers later).count true < max m 1 then some state
          else none) ∧
    (keeper.after before).ring.keys.open? ((keeper.after before).ring.issue iv state) =
      some state := by
  have hnewest : (keeper.after before).ring.keys.newest ∈
      (keeper.after before).ring.keys.toList := List.mem_cons_self
  have hknown (k : Key) (hk : k ∈ (keeper.after (before ++ later)).ring.keys.toList) :
      k ∈ keeper.ring.keys.toList ++ keeper.generated (before ++ later) := mem_of_mem_after hk
  have hsealing (k : Key) (hk : k ∈ (keeper.after before).ring.keys.toList) :
      k ∈ keeper.ring.keys.toList ++ keeper.generated (before ++ later) := by
    rw [generated_append, ← List.append_assoc]
    exact List.mem_append_left _ (mem_of_mem_after hk)
  have hnamed : Named ((keeper.after before).ring.keys.newest ::
      (keeper.after (before ++ later)).ring.keys.toList) := by
    refine hkeys.named.subset fun k hk => ?_
    rcases List.mem_cons.mp hk with rfl | hk
    · exact hsealing _ hnewest
    · exact hknown k hk
  have hmember := (keeper.after before).newest_mem_after_iff later
    (hkeys.not_mem_generated hnewest)
  rw [← after_append, mode_after] at hmember
  have hopens : (keeper.after (before ++ later)).ring.redeem?
      ((keeper.after before).ring.issue iv state) =
        if (keeper.after before).ring.keys.newest ∈
          (keeper.after (before ++ later)).ring.keys.toList then some state else none :=
    KeyList.open?_sealWith hnamed hiv state
  refine ⟨?_, ?_, ?_, ?_⟩
  · intro hmode
    refine ⟨?_, ?_⟩
    · rw [hopens, if_pos (hmember.mpr (by simp [hmode]))]
    · intro ticket
      have hafter := toList_after_inMemory hmode (before ++ later)
      have hnamed' : Named (keeper.after (before ++ later)).ring.keys.toList :=
        hkeys.named.subset hknown
      have hfirst : Named keeper.ring.keys.toList :=
        hkeys.named.subset fun k hk => List.mem_append_left _ hk
      apply Option.ext
      intro s
      rw [Ring.redeem?, Ring.redeem?, KeyList.open?_eq_some_iff hnamed',
        KeyList.open?_eq_some_iff hfirst]
      simp only [hafter, List.mem_rotate]
  · intro path hmode
    rw [hopens, if_pos (hmember.mpr (by simp [hmode]))]
  · intro path m hmode
    rw [hopens]
    have hiff : (keeper.after before).ring.keys.newest ∈
        (keeper.after (before ++ later)).ring.keys.toList ↔
          ((keeper.after before).answers later).count true < max m 1 := by
      rw [hmember, hmode]
      simp
    exact if_congr hiff rfl rfl
  · have hopen : (keeper.after before).ring.keys.newest.open?
        ((keeper.after before).ring.issue iv state) = some state :=
      Key.open?_sealWith _ state hiv
    rw [KeyList.open?, KeyList.toList, List.findSome?_cons, hopen]

theorem distinct_of_sublist {keeper : Keeper} {calls : List Call} {keys : List Key}
    (hnames : (keys.map Key.name).Nodup)
    (h : (keeper.ring.keys.toList ++ keeper.generated calls).Sublist keys) :
    keeper.Distinct calls := by
  have hown := hnames.sublist (h.map Key.name)
  obtain ⟨_, hunlike, hapart⟩ := List.nodup_append.mp hown.of_map
  refine ⟨?_, hunlike, ?_⟩
  · intro a ha b hb hsame
    exact List.inj_on_of_nodup_map hown ha hb hsame
  · intro k hmade hold
    exact hapart k hold k hmade rfl

def sampleKey (b : UInt8) : Key := ⟨List.replicate 32 b, List.length_replicate⟩

def sampleCall (b : UInt8) : Call := ⟨Storage.noFailure, sampleKey b⟩

def sampleKeys : List Key := [2, 1, 3, 4, 5].map sampleKey

/-- The first byte of each name is enough to tell these keys apart. -/
theorem sample_names : (sampleKeys.map Key.name).Nodup := by
  have hfirst : (sampleKeys.map Key.name).map List.head? =
      [some 170, some 92, some 152, some 75, some 79] := by
    decide +kernel
  apply List.Nodup.of_map List.head?
  rw [hfirst]
  decide

/-- Two keys that go round. -/
def pair : Keeper := .start ⟨.inMemory, ⟨sampleKey 2, [sampleKey 1]⟩⟩ ⟨[], []⟩

/-- A ring that keeps two keys, so that the second key that comes in drives out the newest. -/
def twoKept : Keeper := .start ⟨.file "keys" (some 2), ⟨sampleKey 2, [sampleKey 1]⟩⟩ ⟨[], []⟩

theorem sample_ticket_opens :
    (List.replicate 16 7 : Bytes).length = ivLength ∧
    pair.Distinct ([sampleCall 3] ++ [sampleCall 4]) ∧
    twoKept.Distinct ([sampleCall 3] ++ [sampleCall 4]) ∧
    twoKept.Distinct ([sampleCall 3] ++ [sampleCall 4, sampleCall 5]) ∧
    (pair.after ([sampleCall 3] ++ [sampleCall 4])).ring.redeem?
      ((pair.after [sampleCall 3]).ring.issue (List.replicate 16 7) [1, 2, 3]) =
        some [1, 2, 3] ∧
    (twoKept.after ([sampleCall 3] ++ [sampleCall 4])).ring.redeem?
      ((twoKept.after [sampleCall 3]).ring.issue (List.replicate 16 7) [1, 2, 3]) =
        some [1, 2, 3] ∧
    (twoKept.after ([sampleCall 3] ++ [sampleCall 4, sampleCall 5])).ring.redeem?
      ((twoKept.after [sampleCall 3]).ring.issue (List.replicate 16 7) [1, 2, 3]) = none := by
  have hiv : (List.replicate 16 7 : Bytes).length = ivLength := rfl
  have hpair : pair.Distinct ([sampleCall 3] ++ [sampleCall 4]) :=
    distinct_of_sublist sample_names (by decide)
  have hkept : twoKept.Distinct ([sampleCall 3] ++ [sampleCall 4]) :=
    distinct_of_sublist sample_names (by decide)
  have hdriven : twoKept.Distinct ([sampleCall 3] ++ [sampleCall 4, sampleCall 5]) :=
    distinct_of_sublist sample_names (by decide)
  refine ⟨hiv, hpair, hkept, hdriven, ?_, ?_, ?_⟩
  · exact ((ticket_opens_in_its_window _ _ _ _ [1, 2, 3] hiv hpair).1 rfl).1
  · exact (ticket_opens_in_its_window _ _ _ _ [1, 2, 3] hiv hkept).2.2.1 "keys" 2 rfl
  · exact (ticket_opens_in_its_window _ _ _ _ [1, 2, 3] hiv hdriven).2.2.1 "keys" 2 rfl

end Keeper
end Gatehouse.Ticket
