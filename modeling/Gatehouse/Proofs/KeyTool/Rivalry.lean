import Gatehouse.KeyTool.SharedFile
import Gatehouse.Proofs.Ticket.Reload
import Gatehouse.Proofs.Ticket.Window

namespace Gatehouse.KeyTool

open Storage Ticket

/-- The keys in a file, none if it is missing or not one of keys. -/
def keysIn (path : String) (disk : Disk) : List Key :=
  match disk.read path with
  | .ok blob => (KeyList.ofBytes blob).toOption.elim [] KeyList.toList
  | .error _ => []

theorem keysIn_of_read {path : String} {disk : Disk} {keys : KeyList}
    (h : disk.read path = .ok keys.toBytes) : keysIn path disk = keys.toList := by
  simp only [keysIn, h, KeyList.ofBytes_toBytes]
  rfl

theorem read_of_mem_keysIn {path : String} {disk : Disk} {key : Key} (h : key ∈ keysIn path disk) :
    ∃ keys : KeyList, disk.read path = .ok keys.toBytes ∧ keysIn path disk = keys.toList := by
  cases hread : disk.read path with
  | error e => simp [keysIn, hread] at h
  | ok blob =>
    cases hkeys : KeyList.ofBytes blob with
    | error e => simp [keysIn, hread, hkeys, Except.toOption] at h
    | ok keys =>
      obtain rfl := KeyList.ofBytes_eq_ok_iff.mp hkeys
      exact ⟨keys, rfl, keysIn_of_read hread⟩

/-- Who loads a file of one key, or makes a missing one, has one key. -/
theorem load_of_few {path : String} {spare : Key} {disk disk' : Disk} {ring : Ring}
    (hfew : (keysIn path disk).length < 2)
    (h : Ring.load (.file path none) spare disk = (.ok ring, disk')) :
    ∃ key, ring = ⟨.file path none, ⟨key, []⟩⟩ ∧
      disk'.read path = .ok (KeyList.mk key []).toBytes ∧ ∀ k ∈ keysIn path disk, k = key := by
  obtain ⟨mode, keys⟩ := ring
  obtain ⟨rfl, hread⟩ := Ring.of_load h
  by_cases hmissing : disk.read path = .error .notFound
  · rcases Ring.load_of_missing hmissing none spare with ⟨_, -, hmade, -⟩ | ⟨_, _, -, hfailed, -⟩
    · obtain ⟨-, rfl⟩ := Ring.mk.inj (Except.ok.inj (congrArg Prod.fst (hmade.symm.trans h)))
      exact ⟨spare, rfl, hread, by simp [keysIn, hmissing]⟩
    · cases congrArg Prod.fst (hfailed.symm.trans h)
  · obtain rfl : disk = disk' := (Ring.load_of_present hmissing none spare).symm.trans (by rw [h])
    obtain ⟨newest, older⟩ := keys
    have hkeys := keysIn_of_read hread
    rw [hkeys, KeyList.length_toList] at hfew
    change older.length + 1 < 2 at hfew
    obtain rfl : older = [] := List.length_eq_zero_iff.mp (by omega)
    refine ⟨newest, rfl, hread, ?_⟩
    intro k hk
    rw [hkeys] at hk
    exact List.mem_singleton.mp hk

/-- A ring that rotates has its fresh key and all its others in the file. -/
theorem rotate_of_allows (keeper : Keeper) {path : String}
    (hmode : keeper.ring.mode = .file path none) (hsize : 2 ≤ keeper.ring.keys.size)
    (hallows : keeper.disk.Allows path) (fresh : Key) :
    (keeper.rotate fresh).2.ring = ⟨.file path none, ⟨fresh, keeper.ring.keys.toList⟩⟩ ∧
      (keeper.rotate fresh).2.disk.read path =
        .ok (KeyList.mk fresh keeper.ring.keys.toList).toBytes ∧
      (keeper.rotate fresh).2.disk.Allows path := by
  have hnext : keeper.ring.next? fresh =
      some ⟨.file path none, ⟨fresh, keeper.ring.keys.toList⟩⟩ := by
    rw [Ring.next?, if_neg (Nat.not_lt.mpr hsize), hmode]
    rfl
  have hok : (runSteps noFailure path
      (replacement [(KeyList.mk fresh keeper.ring.keys.toList).toBytes]) keeper.disk).1 = .ok () :=
    (runSteps_replacement_ok_iff _).mpr ⟨fun _ _ => rfl, hallows⟩
  have hreplaced := replaced_of_ok hok
  rw [List.flatten_singleton] at hreplaced
  rw [Keeper.rotate, Keeper.rotateWith, hnext]
  exact ⟨rfl, hreplaced.content, hallows.of_same hreplaced.confined.same⟩

namespace SharedFile

/-- The keys that someone has in memory. -/
def held (s : SharedFile) (who : Party) : Option (List Key) :=
  (s.keepers who).map (·.ring.keys.toList)

namespace Move

def who : Move → Party
  | .load who _ => who
  | .rotate who _ => who

/-- The keys that a move makes. -/
def fresh : Move → List Key
  | .load _ _ => []
  | .rotate _ key => [key]

/-- Who knows what is in the file after a move, if these did before it. -/
def informs (informed : List Party) : Move → List Party
  | .load who _ => who :: informed
  | .rotate who _ => [who]

/-- Nobody rotates who does not know what is in the file. -/
def isDue (informed : List Party) : Move → Bool
  | .load _ _ => true
  | .rotate who _ => informed.contains who

end Move

/-- Every move is due. -/
def inTurn (informed : List Party) : List Move → Bool
  | [] => true
  | move :: rest => move.isDue informed && inTurn (move.informs informed) rest

/-- The keys that are in the file at one time or another. -/
def everIn (path : String) (s : SharedFile) : List Move → List Key
  | [] => keysIn path s.disk
  | move :: rest =>
    keysIn path s.disk ++ (s.act? path move).elim [] fun next => everIn path next rest

variable {path : String} {s s' last : SharedFile} {move : Move} {moves : List Move}

theorem keepers_set_self (s : SharedFile) (disk : Disk) (who : Party) (keeper : Option Keeper) :
    (s.set disk who keeper).keepers who = keeper := if_pos rfl

theorem keepers_set_of_ne {other who : Party} (h : other ≠ who) (s : SharedFile) (disk : Disk)
    (keeper : Option Keeper) : (s.set disk who keeper).keepers other = s.keepers other := if_neg h

theorem act?_load_eq_some_iff {who : Party} {spare : Key} :
    s.act? path (.load who spare) = some s' ↔
      ∃ ring disk, Ring.load (.file path none) spare s.disk = (.ok ring, disk) ∧
        s' = s.set disk who (some (.start ring disk)) := by
  rw [act?]
  rcases Ring.load (.file path none) spare s.disk with ⟨_ | ring, disk⟩
  · simp
  · simp [eq_comm]

/-- A run of the tool that nobody comes between does what the tool does with a file of its own. -/
theorem run?_rotateFile {disk disk' : Disk} {ring : Ring} (entropy : Entropy) (number : Nat)
    (h : Ring.load (.file path none) (entropy.key 0) disk = (.ok ring, disk')) :
    ∃ last, run? path [.load (.run number) (entropy.key 0), .rotate (.run number) (entropy.key 1)]
        (untouched disk) = some last ∧ last.disk = (rotateFile path none entropy disk).2 := by
  have hload : (untouched disk).act? path (.load (.run number) (entropy.key 0)) =
      some ((untouched disk).set disk' (.run number) (some (.start ring disk'))) :=
    act?_load_eq_some_iff.mpr ⟨ring, disk', h, rfl⟩
  rw [run?, hload, Option.bind_some, run?, SharedFile.act?, keepers_set_self, rotateFile, h]
  exact ⟨_, rfl, rfl⟩

/-- Every ring that someone has loaded is of one kind. -/
def Rings (Fits : Ring → Prop) (s : SharedFile) : Prop :=
  ∀ who keeper, s.keepers who = some keeper → Fits keeper.ring

theorem Rings.set {Fits : Ring → Prop} (h : s.Rings Fits) {disk : Disk} {who : Party}
    {keeper : Option Keeper} (hkeeper : ∀ k ∈ keeper, Fits k.ring) :
    (s.set disk who keeper).Rings Fits := by
  intro other k hk
  by_cases hother : other = who
  · rw [hother, keepers_set_self] at hk
    exact hkeeper k hk
  · rw [keepers_set_of_ne hother] at hk
    exact h other k hk

/-- There is something to rotate into for everyone, and it can be written. -/
structure Sound (path : String) (s : SharedFile) : Prop where
  file : ∃ keys : KeyList, 2 ≤ keys.size ∧ s.disk.read path = .ok keys.toBytes
  allows : s.disk.Allows path
  rings : s.Rings fun ring => ring.mode = .file path none ∧ 2 ≤ ring.keys.size

/-- What a move does to the keys in the file and to those in memory. Whoever made it has the keys of the
file, or none. -/
structure Turn (path : String) (s s' : SharedFile) (move : Move) : Prop where
  file : match move with
    | .load _ _ => keysIn path s'.disk = keysIn path s.disk
    | .rotate who fresh => ∃ keys, s.held who = some keys ∧ keysIn path s'.disk = fresh :: keys
  own : ∀ keys, s'.held move.who = some keys → keys = keysIn path s'.disk
  rest : ∀ other ≠ move.who, s'.held other = s.held other

theorem Sound.act? (h : Sound path s) (hact : s.act? path move = some s') :
    Sound path s' ∧ Turn path s s' move := by
  have hturn {disk : Disk} {keys : KeyList} (hread : disk.read path = .ok keys.toBytes)
      {keeper : Option Keeper} (hkeeper : ∀ k ∈ keeper, k.ring = ⟨.file path none, keys⟩) :
      ∀ list, (s.set disk move.who keeper).held move.who = some list → list = keysIn path disk := by
    intro list hlist
    rw [held, keepers_set_self, Option.map_eq_some_iff] at hlist
    obtain ⟨k, hk, rfl⟩ := hlist
    rw [hkeeper k hk, keysIn_of_read hread]
  have hrest (disk : Disk) (keeper : Option Keeper) (other : Party) (hother : other ≠ move.who) :
      (s.set disk move.who keeper).held other = s.held other := by
    rw [held, keepers_set_of_ne hother, held]
  cases move with
  | load who spare =>
    obtain ⟨keys, hsize, hread⟩ := h.file
    simp only [SharedFile.act?, Ring.load_of_read hread, Option.some.injEq] at hact
    subst hact
    have hkeeper : ∀ k ∈ some (Keeper.start ⟨.file path none, keys⟩ s.disk),
        k.ring = ⟨.file path none, keys⟩ := by
      rintro k ⟨⟩
      rfl
    refine ⟨⟨⟨keys, hsize, hread⟩, h.allows, h.rings.set fun k hk => ?_⟩, rfl,
      hturn hread hkeeper, hrest _ _⟩
    rw [hkeeper k hk]
    exact ⟨rfl, hsize⟩
  | rotate who fresh =>
    simp only [SharedFile.act?, Option.map_eq_some_iff] at hact
    obtain ⟨keeper, hheld, rfl⟩ := hact
    obtain ⟨hmode, hsize⟩ := h.rings who keeper hheld
    obtain ⟨hring, hread, hallows⟩ :=
      rotate_of_allows { keeper with disk := s.disk } hmode hsize h.allows fresh
    have hmore : 2 ≤ (KeyList.mk fresh keeper.ring.keys.toList).size := by
      rw [KeyList.size, KeyList.length_toList]
      omega
    have hkeeper (gone : Prop) [Decidable gone] : ∀ k ∈ (if gone then
        some (Keeper.rotate fresh { keeper with disk := s.disk }).2 else none),
        k.ring = ⟨.file path none, ⟨fresh, keeper.ring.keys.toList⟩⟩ := by
      intro k hk
      split at hk
      · obtain rfl := Option.some.inj hk
        exact hring
      · contradiction
    refine ⟨⟨⟨_, hmore, hread⟩, hallows, h.rings.set fun k hk => ?_⟩,
      ⟨_, ?_, keysIn_of_read hread⟩, hturn hread (hkeeper _), hrest _ _⟩
    · rw [hkeeper _ k hk]
      exact ⟨rfl, hmore⟩
    · rw [held, hheld, Option.map_some]

/-- A list of keys is in the file, or someone has it in memory. -/
def AtHand (path : String) (s : SharedFile) (keys : List Key) : Prop :=
  keys = keysIn path s.disk ∨ ∃ who, s.held who = some keys

/-- A list at hand was there before, or has just been written. -/
theorem Turn.atHand (h : Turn path s s' move) {keys : List Key} (hkeys : AtHand path s' keys) :
    AtHand path s keys ∨ ∃ key ∈ move.fresh, ∃ before, AtHand path s before ∧ keys = key :: before := by
  have hfile (list : List Key) (hlist : list = keysIn path s'.disk) : AtHand path s list ∨
      ∃ key ∈ move.fresh, ∃ before, AtHand path s before ∧ list = key :: before := by
    cases move with
    | load who spare => exact .inl (.inl (hlist.trans h.file))
    | rotate who fresh =>
      obtain ⟨before, hbefore, hwritten⟩ := h.file
      exact .inr ⟨fresh, List.mem_singleton_self fresh, before, .inr ⟨who, hbefore⟩,
        hlist.trans hwritten⟩
  rcases hkeys with hkeys | ⟨who, hwho⟩
  · exact hfile keys hkeys
  · by_cases hown : who = move.who
    · exact hfile keys (h.own keys (hown ▸ hwho))
    · exact .inl (.inr ⟨who, by rw [← h.rest who hown, hwho]⟩)

/-- Every list at hand has the first keys, and none but those that are known. -/
def Between (path : String) (first known : List Key) (s : SharedFile) : Prop :=
  ∀ keys, AtHand path s keys → (∀ k ∈ first, k ∈ keys) ∧ ∀ k ∈ keys, k ∈ known

/-- Two keys are known that no list at hand has together. -/
def Divided (path : String) (known : List Key) (s : SharedFile) : Prop :=
  ∃ one ∈ known, ∃ other ∈ known, ∀ keys, AtHand path s keys → one ∉ keys ∨ other ∉ keys

variable {first known : List Key} {informed : List Party}

theorem Between.turn (h : Between path first known s) (hturn : Turn path s s' move) :
    Between path first (move.fresh ++ known) s' := by
  intro keys hkeys
  rcases hturn.atHand hkeys with hsame | ⟨key, hkey, before, hbefore, rfl⟩
  · exact ⟨(h keys hsame).1, fun k hk => List.mem_append_right _ ((h keys hsame).2 k hk)⟩
  · refine ⟨fun k hk => List.mem_cons_of_mem key ((h before hbefore).1 k hk), ?_⟩
    rintro k (_ | ⟨_, hk⟩)
    · exact List.mem_append_left _ hkey
    · exact List.mem_append_right _ ((h before hbefore).2 k hk)

/-- A key that nobody had before brings no two others together. -/
theorem Divided.turn (h : Divided path known s) (hturn : Turn path s s' move)
    (hnew : ∀ k ∈ move.fresh, k ∉ known) : Divided path (move.fresh ++ known) s' := by
  obtain ⟨one, hone, other, hother, hapart⟩ := h
  refine ⟨one, List.mem_append_right _ hone, other, List.mem_append_right _ hother,
    fun keys hkeys => ?_⟩
  rcases hturn.atHand hkeys with hsame | ⟨key, hkey, before, hbefore, rfl⟩
  · exact hapart keys hsame
  · have hne (k : Key) (hk : k ∈ known) : k ≠ key := fun he => hnew key hkey (he ▸ hk)
    simpa [hne one hone, hne other hother] using hapart before hbefore

/-- All that is known is in the file. Who is informed has just that in memory, and everyone else lacks
something. -/
structure Tracked (path : String) (informed : List Party) (known : List Key) (s : SharedFile) :
    Prop where
  whole : ∀ k ∈ known, k ∈ keysIn path s.disk
  knows : ∀ who ∈ informed, ∀ keys, s.held who = some keys → keys = keysIn path s.disk
  others : ∀ who, who ∉ informed → ∀ keys, s.held who = some keys → ∃ k ∈ known, k ∉ keys

theorem Tracked.turn (h : Tracked path informed known s) (hbetween : Between path first known s)
    (hturn : Turn path s s' move) (hnew : ∀ k ∈ move.fresh, k ∉ known)
    (hdue : move.isDue informed = true) :
    Tracked path (move.informs informed) (move.fresh ++ known) s' := by
  cases move with
  | load who spare =>
    have hfile : keysIn path s'.disk = keysIn path s.disk := hturn.file
    refine ⟨?_, ?_, ?_⟩
    · rw [hfile]
      exact h.whole
    · intro p hp keys hkeys
      by_cases hown : p = who
      · exact hturn.own keys (hown ▸ hkeys)
      · rw [hturn.rest p hown] at hkeys
        rw [hfile]
        exact h.knows p (List.mem_of_ne_of_mem hown hp) keys hkeys
    · intro p hp keys hkeys
      have hother := List.ne_of_not_mem_cons hp
      rw [hturn.rest p hother] at hkeys
      exact h.others p (List.not_mem_of_not_mem_cons hp) keys hkeys
  | rotate who fresh =>
    obtain ⟨keys, hheld, hfile⟩ := hturn.file
    have hinformed : who ∈ informed := by simpa [Move.isDue] using hdue
    have hwhole := h.knows who hinformed keys hheld
    refine ⟨?_, ?_, ?_⟩
    · intro k hk
      rw [hfile, hwhole]
      rcases List.mem_cons.mp hk with rfl | hk
      · exact List.mem_cons_self
      · exact List.mem_cons_of_mem _ (h.whole k hk)
    · intro p hp list hlist
      rw [List.mem_singleton.mp hp] at hlist
      exact hturn.own list hlist
    · intro p hp list hlist
      have hother : p ≠ who := fun he => hp (List.mem_singleton.mpr he)
      rw [hturn.rest p hother] at hlist
      refine ⟨fresh, List.mem_cons_self, ?_⟩
      intro hin
      have hknown := (hbetween list (.inr ⟨p, hlist⟩)).2 fresh hin
      exact hnew fresh (List.mem_singleton_self fresh) hknown

/-- A rotation out of turn leaves a key out, and puts in one that whoever has the other lacks. -/
theorem Tracked.divided (h : Tracked path informed known s) (hbetween : Between path first known s)
    (hturn : Turn path s s' move) (hnew : ∀ k ∈ move.fresh, k ∉ known)
    (hdue : move.isDue informed = false) : Divided path (move.fresh ++ known) s' := by
  cases move with
  | load who spare => contradiction
  | rotate who fresh =>
    obtain ⟨keys, hheld, hfile⟩ := hturn.file
    have hfresh : fresh ∉ known := hnew fresh (List.mem_singleton_self fresh)
    have hstranger : who ∉ informed := by simpa [Move.isDue] using hdue
    obtain ⟨lost, hlost, hlacks⟩ := h.others who hstranger keys hheld
    have hwritten (list : List Key) (hlist : list = keysIn path s'.disk) : lost ∉ list := by
      rw [hlist, hfile, List.mem_cons, not_or]
      exact ⟨fun he => hfresh (he ▸ hlost), hlacks⟩
    refine ⟨lost, List.mem_cons_of_mem _ hlost, fresh, List.mem_cons_self, fun list hlist => ?_⟩
    rcases hlist with hlist | ⟨p, hp⟩
    · exact .inl (hwritten list hlist)
    · by_cases hown : p = who
      · exact .inl (hwritten list (hturn.own list (hown ▸ hp)))
      · rw [hturn.rest p hown] at hp
        exact .inr fun hin => hfresh ((hbetween list (.inr ⟨p, hp⟩)).2 fresh hin)

/-- The keys that moves make are all different, and were not known before. -/
structure Unlike (known : List Key) (moves : List Move) : Prop where
  nodup : (moves.flatMap Move.fresh).Nodup
  unknown : ∀ k ∈ moves.flatMap Move.fresh, k ∉ known

theorem Unlike.now (h : Unlike known (move :: moves)) : ∀ k ∈ move.fresh, k ∉ known :=
  fun k hk => h.unknown k (List.mem_append_left _ hk)

theorem Unlike.later (h : Unlike known (move :: moves)) : Unlike (move.fresh ++ known) moves := by
  have hsplit := List.nodup_append.mp h.nodup
  refine ⟨hsplit.2.1, fun k hk hin => ?_⟩
  rcases List.mem_append.mp hin with hnow | hbefore
  · exact hsplit.2.2 k hnow k hk rfl
  · exact h.unknown k (List.mem_append_right _ hk) hbefore

theorem run?_cons_eq_some_iff :
    run? path (move :: moves) s = some last ↔
      ∃ next, s.act? path move = some next ∧ run? path moves next = some last :=
  Option.bind_eq_some_iff

theorem Sound.run? (h : Sound path s) (hrun : run? path moves s = some last) : Sound path last := by
  induction moves generalizing s with
  | nil => exact Option.some.inj hrun ▸ h
  | cons move rest ih =>
    obtain ⟨next, hact, hrest⟩ := run?_cons_eq_some_iff.mp hrun
    exact ih (h.act? hact).1 hrest

/-- What is known after some moves and the keys of those to come. -/
theorem mem_known_cons (k : Key) : k ∈ known ++ (move :: moves).flatMap Move.fresh ↔
    k ∈ (move.fresh ++ known) ++ moves.flatMap Move.fresh := by
  simp [or_left_comm]

theorem Between.keeps_first (h : Between path first known s) (hsound : Sound path s)
    (hrun : run? path moves s = some last) : ∀ k ∈ first, k ∈ keysIn path last.disk := by
  induction moves generalizing s known with
  | nil =>
    obtain rfl := Option.some.inj hrun
    exact (h _ (.inl rfl)).1
  | cons move rest ih =>
    obtain ⟨next, hact, hrest⟩ := run?_cons_eq_some_iff.mp hrun
    obtain ⟨hnext, hturn⟩ := hsound.act? hact
    exact ih (h.turn hturn) hnext hrest

theorem mem_everIn_of_mem {k : Key} (h : k ∈ keysIn path s.disk) (moves : List Move) :
    k ∈ everIn path s moves := by
  cases moves with
  | nil => exact h
  | cons move rest => exact List.mem_append_left _ h

theorem mem_everIn_of_mem_last (hrun : run? path moves s = some last) {k : Key}
    (h : k ∈ keysIn path last.disk) : k ∈ everIn path s moves := by
  induction moves generalizing s with
  | nil =>
    obtain rfl := Option.some.inj hrun
    exact h
  | cons move rest ih =>
    obtain ⟨next, hact, hrest⟩ := run?_cons_eq_some_iff.mp hrun
    rw [everIn, hact]
    exact List.mem_append_right _ (ih hrest)

/-- Everything that is ever in the file was known before or is made on the way. -/
theorem Between.mem_everIn_iff (h : Between path first known s) (hsound : Sound path s)
    (hrun : run? path moves s = some last) (k : Key) :
    k ∈ known ++ everIn path s moves ↔ k ∈ known ++ moves.flatMap Move.fresh := by
  induction moves generalizing s known with
  | nil =>
    have hfile := (h _ (.inl rfl)).2 k
    simpa [everIn] using hfile
  | cons move rest ih =>
    obtain ⟨next, hact, hrest⟩ := run?_cons_eq_some_iff.mp hrun
    obtain ⟨hnext, hturn⟩ := hsound.act? hact
    have hfile := (h _ (.inl rfl)).2 k
    have hmade : k ∈ move.fresh → k ∈ everIn path next rest := by
      intro hk
      cases move with
      | load who spare => contradiction
      | rotate who fresh =>
        obtain ⟨keys, -, hwritten⟩ := hturn.file
        apply mem_everIn_of_mem
        rw [hwritten, List.mem_singleton.mp hk]
        exact List.mem_cons_self
    rw [mem_known_cons, ← ih (h.turn hturn) hnext hrest]
    simp only [everIn, hact, Option.elim_some, List.mem_append]
    constructor
    · rintro (hk | hk | hk)
      · exact .inl (.inr hk)
      · exact .inl (.inr (hfile hk))
      · exact .inr hk
    · rintro ((hk | hk) | hk)
      · exact .inr (.inr (hmade hk))
      · exact .inl hk
      · exact .inr (.inr hk)

theorem Divided.run? (h : Divided path known s) (hsound : Sound path s)
    (hunlike : Unlike known moves) (hrun : SharedFile.run? path moves s = some last) :
    ∃ k ∈ known ++ moves.flatMap Move.fresh, k ∉ keysIn path last.disk := by
  induction moves generalizing s known with
  | nil =>
    obtain rfl := Option.some.inj hrun
    obtain ⟨one, hone, other, hother, hapart⟩ := h
    rcases hapart _ (.inl rfl) with hlacks | hlacks
    · exact ⟨one, List.mem_append_left _ hone, hlacks⟩
    · exact ⟨other, List.mem_append_left _ hother, hlacks⟩
  | cons move rest ih =>
    obtain ⟨next, hact, hrest⟩ := run?_cons_eq_some_iff.mp hrun
    obtain ⟨hnext, hturn⟩ := hsound.act? hact
    obtain ⟨k, hk, hlacks⟩ := ih (h.turn hturn hunlike.now) hnext hunlike.later hrest
    exact ⟨k, (mem_known_cons k).mpr hk, hlacks⟩

/-- Everything is still there at the end exactly if every move was due. -/
theorem Tracked.run?_iff (h : Tracked path informed known s) (hbetween : Between path first known s)
    (hsound : Sound path s) (hunlike : Unlike known moves)
    (hrun : SharedFile.run? path moves s = some last) :
    (∀ k ∈ known ++ moves.flatMap Move.fresh, k ∈ keysIn path last.disk) ↔
      inTurn informed moves = true := by
  induction moves generalizing s known informed with
  | nil =>
    obtain rfl := Option.some.inj hrun
    simpa [inTurn] using h.whole
  | cons move rest ih =>
    obtain ⟨next, hact, hrest⟩ := run?_cons_eq_some_iff.mp hrun
    obtain ⟨hnext, hturn⟩ := hsound.act? hact
    cases hdue : move.isDue informed with
    | false =>
      obtain ⟨k, hk, hlacks⟩ := (h.divided hbetween hturn hunlike.now hdue).run? hnext
        hunlike.later hrest
      refine iff_of_false (fun hall => hlacks (hall k ((mem_known_cons k).mpr hk))) ?_
      simp [inTurn, hdue]
    | true =>
      simp only [mem_known_cons, inTurn, hdue, Bool.true_and]
      exact ih (h.turn hbetween hturn hunlike.now hdue) (hbetween.turn hturn) hnext hunlike.later
        hrest

/-- There is one key, in the file and for everyone. -/
structure Single (path : String) (key : Key) (s : SharedFile) : Prop where
  file : s.disk.read path = .ok (KeyList.mk key []).toBytes
  rings : s.Rings (· = ⟨.file path none, ⟨key, []⟩⟩)

variable {key : Key}

theorem Single.act? (h : Single path key s) (hact : s.act? path move = some s') :
    Single path key s' := by
  cases move with
  | load who spare =>
    simp only [SharedFile.act?, Ring.load_of_read h.file, Option.some.injEq] at hact
    subst hact
    refine ⟨h.file, h.rings.set ?_⟩
    rintro k ⟨⟩
    rfl
  | rotate who fresh =>
    simp only [SharedFile.act?, Option.map_eq_some_iff] at hact
    obtain ⟨keeper, hheld, rfl⟩ := hact
    have hring := h.rings who keeper hheld
    have hskip : Keeper.rotate fresh { keeper with disk := s.disk } =
        (false, { keeper with disk := s.disk }) := by
      simp only [Keeper.rotate, Keeper.rotateWith, hring]
      rfl
    rw [hskip]
    refine ⟨h.file, h.rings.set fun k hk => ?_⟩
    split at hk
    · obtain rfl := Option.some.inj hk
      exact hring
    · contradiction

theorem Single.run? (h : Single path key s) (hrun : run? path moves s = some last) :
    Single path key last ∧ ∀ k ∈ everIn path s moves, k = key := by
  have hfile : keysIn path s.disk = [key] := keysIn_of_read h.file
  induction moves generalizing s with
  | nil =>
    obtain rfl := Option.some.inj hrun
    refine ⟨h, fun k hk => ?_⟩
    rw [everIn, hfile] at hk
    exact List.mem_singleton.mp hk
  | cons move rest ih =>
    obtain ⟨next, hact, hrest⟩ := run?_cons_eq_some_iff.mp hrun
    have hnext := h.act? hact
    obtain ⟨hlast, hever⟩ := ih hnext hrest (keysIn_of_read hnext.file)
    refine ⟨hlast, fun k hk => ?_⟩
    rw [everIn, hfile, hact] at hk
    rcases List.mem_append.mp hk with hk | hk
    · exact List.mem_singleton.mp hk
    · exact hever k hk

/-- Where there is one key at most, none is lost, as nobody has anything to rotate into. -/
theorem few_stay {disk : Disk} (hfew : (keysIn path disk).length < 2)
    (hrun : run? path moves (untouched disk) = some last) :
    (∀ k ∈ everIn path (untouched disk) moves, k ∈ keysIn path last.disk) ∧
      ∀ who keeper, last.keepers who = some keeper → keeper.ring.keys.size < 2 := by
  cases moves with
  | nil =>
    obtain rfl := Option.some.inj hrun
    refine ⟨fun k hk => hk, ?_⟩
    rintro _ _ ⟨⟩
  | cons move rest =>
    obtain ⟨next, hact, hrest⟩ := run?_cons_eq_some_iff.mp hrun
    cases move with
    | rotate who fresh => contradiction
    | load who spare =>
      -- From the first load on there is one key.
      obtain ⟨ring, disk', hload, rfl⟩ := act?_load_eq_some_iff.mp hact
      obtain ⟨key, rfl, hread, hold⟩ := load_of_few hfew hload
      have hnobody : (untouched disk).Rings (· = ⟨.file path none, ⟨key, []⟩⟩) := by
        rintro _ _ ⟨⟩
      have hstart : Single path key ((untouched disk).set disk' who
          (some (.start ⟨.file path none, ⟨key, []⟩⟩ disk'))) := by
        refine ⟨hread, hnobody.set ?_⟩
        rintro k ⟨⟩
        rfl
      obtain ⟨hlast, hever⟩ := hstart.run? hrest
      refine ⟨fun k hk => ?_, fun p keeper hkeeper => ?_⟩
      · rw [keysIn_of_read hlast.file, KeyList.toList, List.mem_singleton]
        rw [everIn, hact] at hk
        exact (List.mem_append.mp hk).elim (hold k) (hever k)
      · rw [hlast.rings p keeper hkeeper]
        exact Nat.one_lt_two

theorem Sound.untouched {disk : Disk} (hmany : 2 ≤ (keysIn path disk).length)
    (hallows : disk.Allows path) : Sound path (untouched disk) := by
  obtain ⟨key, hkey⟩ := List.exists_mem_of_length_pos (by omega : 0 < (keysIn path disk).length)
  obtain ⟨keys, hread, hkeys⟩ := read_of_mem_keysIn hkey
  refine ⟨⟨keys, ?_, hread⟩, hallows, ?_⟩
  · rwa [hkeys, KeyList.length_toList] at hmany
  · rintro _ _ ⟨⟩

theorem Between.untouched (path : String) (disk : Disk) :
    Between path (keysIn path disk) (keysIn path disk) (untouched disk) := by
  rintro keys (rfl | ⟨who, hwho⟩)
  · exact ⟨fun k hk => hk, fun k hk => hk⟩
  · contradiction

theorem Tracked.untouched (path : String) (disk : Disk) :
    Tracked path [] (keysIn path disk) (untouched disk) := by
  refine ⟨fun k hk => hk, fun who hwho => ?_, ?_⟩
  · contradiction
  · rintro who - keys ⟨⟩

theorem Sound.rotate (h : Sound path s) {who : Party} {keeper : Keeper}
    (hkeeper : s.keepers who = some keeper) (fresh : Key) :
    ∃ next, s.act? path (.rotate who fresh) = some next ∧
      keysIn path next.disk = fresh :: keeper.ring.keys.toList := by
  obtain ⟨next, hnext⟩ : ∃ next, s.act? path (.rotate who fresh) = some next := by
    simp [SharedFile.act?, hkeeper]
  obtain ⟨keys, hheld, hwritten⟩ := (h.act? hnext).2.file
  rw [held, hkeeper, Option.map_some, Option.some.injEq] at hheld
  exact ⟨next, hnext, hheld ▸ hwritten⟩

/-- A gate that starts again opens the tickets of the keys that are in the file. -/
theorem redeem?_of_restart (hread : ∃ k, k ∈ keysIn path s.disk) (spare : Key) :
    ∃ next keeper, s.act? path (.load .gate spare) = some next ∧
      next.keepers .gate = some keeper ∧ keeper.ring.keys.toList = keysIn path s.disk ∧
      ∀ key, Named (key :: keysIn path s.disk) → ∀ iv state : Bytes, iv.length = ivLength →
        keeper.ring.redeem? (key.sealWith iv state) =
          if key ∈ keysIn path s.disk then some state else none := by
  obtain ⟨_, hmem⟩ := hread
  obtain ⟨keys, hread, hkeys⟩ := read_of_mem_keysIn hmem
  refine ⟨_, _, act?_load_eq_some_iff.mpr ⟨_, _, Ring.load_of_read hread none spare, rfl⟩,
    keepers_set_self _ _ _ _, hkeys.symm, fun key hnamed iv state hiv => ?_⟩
  rw [hkeys] at hnamed ⊢
  exact KeyList.open?_sealWith hnamed hiv state

/-- What becomes of the keys of a file that a gate and runs of the key tool rotate, in whatever order
they load it and write it, if no load and no write fails and the keys they make are all different. The
first keys stay. All the keys that are ever in the file stay exactly if there is one key, which nobody
rotates, or nobody rotates who has not loaded or written what is in the file, since a rotation writes
what its ring has and nothing else. A gate that starts again opens the tickets of the keys that
stay. -/
theorem kept_iff_in_turn {disk : Disk} (hallows : 2 ≤ (keysIn path disk).length → disk.Allows path)
    (hunlike : Unlike (keysIn path disk) moves)
    (hrun : run? path moves (untouched disk) = some last) :
    (∀ key ∈ keysIn path disk, key ∈ keysIn path last.disk) ∧
    ((∀ key ∈ everIn path (untouched disk) moves, key ∈ keysIn path last.disk) ↔
      (keysIn path disk).length < 2 ∨ inTurn [] moves = true) ∧
    (∀ who keeper fresh, last.keepers who = some keeper → 2 ≤ keeper.ring.keys.size →
      ∃ next, last.act? path (.rotate who fresh) = some next ∧
        keysIn path next.disk = fresh :: keeper.ring.keys.toList) ∧
    ∀ key ∈ everIn path (untouched disk) moves, ∀ spare, ∃ next keeper,
      last.act? path (.load .gate spare) = some next ∧ next.keepers .gate = some keeper ∧
      keeper.ring.keys.toList = keysIn path last.disk ∧
      (Named (everIn path (untouched disk) moves) → ∀ iv state : Bytes, iv.length = ivLength →
        keeper.ring.redeem? (key.sealWith iv state) =
          if key ∈ keysIn path last.disk then some state else none) := by
  have hrestart (hsome : ∀ k ∈ everIn path (untouched disk) moves, ∃ k, k ∈ keysIn path last.disk)
      (key : Key) (hkey : key ∈ everIn path (untouched disk) moves) (spare : Key) :
      ∃ next keeper, last.act? path (.load .gate spare) = some next ∧
        next.keepers .gate = some keeper ∧ keeper.ring.keys.toList = keysIn path last.disk ∧
        (Named (everIn path (untouched disk) moves) → ∀ iv state : Bytes, iv.length = ivLength →
          keeper.ring.redeem? (key.sealWith iv state) =
            if key ∈ keysIn path last.disk then some state else none) := by
    obtain ⟨next, keeper, hload, hgate, hkeys, hopens⟩ := redeem?_of_restart (hsome key hkey) spare
    refine ⟨next, keeper, hload, hgate, hkeys, fun hnamed => hopens key (hnamed.subset ?_)⟩
    rintro k (_ | ⟨_, hk⟩)
    · exact hkey
    · exact mem_everIn_of_mem_last hrun hk
  have hfirst (k : Key) (hk : k ∈ keysIn path disk) : k ∈ everIn path (untouched disk) moves :=
    mem_everIn_of_mem (s := untouched disk) hk moves
  by_cases hfew : (keysIn path disk).length < 2
  · obtain ⟨hstay, hsingle⟩ := few_stay hfew hrun
    refine ⟨fun k hk => hstay k (hfirst k hk), iff_of_true hstay (.inl hfew),
      fun who keeper _ hkeeper hmany => ?_, hrestart fun k hk => ⟨k, hstay k hk⟩⟩
    exact absurd hmany (Nat.not_le.mpr (hsingle who keeper hkeeper))
  · have hmany : 2 ≤ (keysIn path disk).length := Nat.le_of_not_lt hfew
    have hsound := Sound.untouched hmany (hallows hmany)
    have hbetween := Between.untouched path disk
    have hlast := hsound.run? hrun
    refine ⟨hbetween.keeps_first hsound hrun, ?_,
      fun _ _ fresh hkeeper _ => hlast.rotate hkeeper fresh, hrestart ?_⟩
    · rw [or_iff_right hfew,
        ← (Tracked.untouched path disk).run?_iff hbetween hsound hunlike hrun]
      simp only [← hbetween.mem_everIn_iff hsound hrun, List.mem_append]
      refine ⟨fun h k hk => h k ?_, fun h k hk => h k (.inr hk)⟩
      exact hk.elim (hfirst k) id
    · intro _ _
      obtain ⟨keys, -, hread⟩ := hlast.file
      exact ⟨keys.newest, by rw [keysIn_of_read hread]; exact List.mem_cons_self⟩

/-- A file of two keys. -/
def twoKeys : Disk :=
  ⟨[], [(["keys"], .file ((Keeper.keyOf 1).secret ++ (Keeper.keyOf 2).secret))]⟩

theorem twoKeys_allows : twoKeys.Allows "keys" := by
  have hok : (runSteps noFailure "keys" (replacement [[]]) twoKeys).1 = .ok () := by decide
  exact ((runSteps_replacement_ok_iff [[]]).mp hok).2

/-- A gate starts, the tool is run, and the gate starts again before it rotates. -/
def taking : List Move := [
  .load .gate (Keeper.keyOf 9), .load (.run 0) (Keeper.keyOf 9), .rotate (.run 0) (Keeper.keyOf 3),
  .load .gate (Keeper.keyOf 9), .rotate .gate (Keeper.keyOf 4)]

/-- A gate starts and the tool is run. The gate does not look at the file again. -/
def rivals : List Move := [
  .load .gate (Keeper.keyOf 9), .load (.run 0) (Keeper.keyOf 9), .rotate (.run 0) (Keeper.keyOf 3),
  .rotate .gate (Keeper.keyOf 4)]

theorem taking_keeps_all :
    twoKeys.Allows "keys" ∧ Unlike (keysIn "keys" twoKeys) taking ∧
    ∃ last, run? "keys" taking (untouched twoKeys) = some last ∧
      ∀ key ∈ everIn "keys" (untouched twoKeys) taking, key ∈ keysIn "keys" last.disk := by
  have hunlike : Unlike (keysIn "keys" twoKeys) taking := ⟨by decide, by decide +kernel⟩
  have hsome : (run? "keys" taking (untouched twoKeys)).isSome := by decide +kernel
  obtain ⟨last, hrun⟩ := Option.isSome_iff_exists.mp hsome
  refine ⟨twoKeys_allows, hunlike, last, hrun, ?_⟩
  exact (kept_iff_in_turn (fun _ => twoKeys_allows) hunlike hrun).2.1.mpr (.inr rfl)

/-- The gate writes a list without the key that the run of the tool has made, and does not open a ticket
of that key when it starts again. -/
theorem rivals_lose_a_key :
    twoKeys.Allows "keys" ∧ Unlike (keysIn "keys" twoKeys) rivals ∧
    ∃ last, run? "keys" rivals (untouched twoKeys) = some last ∧
      Keeper.keyOf 3 ∈ everIn "keys" (untouched twoKeys) rivals ∧
      Keeper.keyOf 3 ∉ keysIn "keys" last.disk ∧
      ∃ next keeper, last.act? "keys" (.load .gate (Keeper.keyOf 9)) = some next ∧
        next.keepers .gate = some keeper ∧
        ∀ iv state : Bytes, iv.length = ivLength →
          keeper.ring.redeem? ((Keeper.keyOf 3).sealWith iv state) = none := by
  have hkeys : (run? "keys" rivals (untouched twoKeys)).map (keysIn "keys" ·.disk) =
      some [Keeper.keyOf 4, Keeper.keyOf 1, Keeper.keyOf 2] := by decide +kernel
  obtain ⟨last, hrun, hlast⟩ := Option.map_eq_some_iff.mp hkeys
  have hlost : Keeper.keyOf 3 ∉ keysIn "keys" last.disk := by
    rw [hlast]
    decide
  have hnamed : Named (Keeper.keyOf 3 :: keysIn "keys" last.disk) := by
    rw [hlast]
    exact fun a ha b hb => List.inj_on_of_nodup_map (by decide +kernel) ha hb
  obtain ⟨next, keeper, hload, hgate, -, hopens⟩ :=
    redeem?_of_restart ⟨Keeper.keyOf 4, by rw [hlast]; decide⟩ (Keeper.keyOf 9)
  refine ⟨twoKeys_allows, ⟨by decide, by decide +kernel⟩, last, hrun, by decide +kernel, hlost,
    next, keeper, hload, hgate, fun iv state hiv => ?_⟩
  rw [hopens _ hnamed iv state hiv, if_neg hlost]

end SharedFile
end Gatehouse.KeyTool
