import Gatehouse.Storage.Disk

namespace Gatehouse.Storage

/-- The place that a target names, if it names one. -/
def Target.place? : Target → Option Place
  | .directory => none
  | .entry parent name _ => some (parent ++ [name])

namespace Disk
variable {disk disk' : Disk} {place other : Place} {node : Node}

theorem node?_set (h : place ≠ []) : (disk.set place node).node? place = some node := by
  simp [node?, set, h]

theorem node?_erase (h : place ≠ []) : (disk.erase place).node? place = none := by
  simp [node?, erase, h]

theorem node?_erase_ne (h : other ≠ place) : (disk.erase place).node? other = disk.node? other := by
  have hfind : (disk.entries.filter fun e => e.1 != place).find? (fun e => e.1 == other) =
      disk.entries.find? fun e => e.1 == other := by
    rw [List.find?_filter]
    congr 1
    funext e
    by_cases he : e.1 = other <;> simp [he, h]
  simp only [node?, erase, hfind]

theorem node?_set_ne (h : other ≠ place) : (disk.set place node).node? other = disk.node? other := by
  have hhead : (place == other) = false := by simp [Ne.symm h]
  have hrest : (disk.set place node).node? other = (disk.erase place).node? other := by
    simp only [node?, set, erase, List.find?_cons, hhead]
  rw [hrest, node?_erase_ne h]

/-- Enters names one after the other. -/
def enterAll (disk : Disk) (directory : Place) : List String → Except Error Place
  | [] => .ok directory
  | name :: rest =>
    match disk.enter directory name with
    | .ok next => disk.enterAll next rest
    | .error e => .error e

/-- All names but the last are entered. -/
theorem follow_append (slash : Bool) (directory : Place) (ways : List String) (name : String) :
    disk.follow slash directory (ways ++ [name]) =
      (disk.enterAll directory ways).map fun parent =>
        if name = "." ∨ name = ".." then .directory else .entry parent name slash := by
  induction ways generalizing directory with
  | nil =>
    simp only [List.nil_append, follow, enterAll, Except.map]
    split <;> rfl
  | cons way rest ih =>
    have hne : rest ++ [name] ≠ [] := by simp
    have hstep : disk.follow slash directory (way :: (rest ++ [name])) =
        match disk.enter directory way with
        | .ok next => disk.follow slash next (rest ++ [name])
        | .error e => .error e := by
      cases hrest : rest ++ [name] with
      | nil => exact absurd hrest hne
      | cons first more => rfl
    rw [List.cons_append, hstep, enterAll]
    cases disk.enter directory way with
    | error e => rfl
    | ok next => exact ih next

theorem enterAll_append (directory : Place) (ways more : List String) :
    disk.enterAll directory (ways ++ more) =
      (disk.enterAll directory ways).bind fun next => disk.enterAll next more := by
  induction ways generalizing directory with
  | nil => rfl
  | cons way rest ih =>
    simp only [List.cons_append, enterAll]
    cases disk.enter directory way with
    | error e => rfl
    | ok next => exact ih next

theorem enter_eq_ok_iff {directory next : Place} {name : String} :
    disk.enter directory name = .ok next ↔
      name = "." ∧ next = directory ∨ name = ".." ∧ next = directory.dropLast ∨
      (name ≠ "." ∧ name ≠ "..") ∧ isTooLong name = false ∧
        disk.node? (directory ++ [name]) = some .directory ∧ next = directory ++ [name] := by
  unfold enter
  by_cases hdot : name = "."
  · simp [hdot, eq_comm (a := directory)]
  · by_cases hdots : name = ".."
    · simp [hdots, eq_comm (a := directory.dropLast)]
    · by_cases hlong : isTooLong name = true
      · simp [hdot, hdots, hlong]
      · rw [Bool.not_eq_true] at hlong
        cases disk.node? (directory ++ [name]) with
        | none => simp [hdot, hdots, hlong]
        | some node => cases node <;> simp [hdot, hdots, hlong, eq_comm (a := directory ++ [name])]

/-- Two disks with the same directories. What else there is on them may differ. -/
structure SameDirectories (disk disk' : Disk) : Prop where
  home : disk'.home = disk.home
  directory_iff : ∀ place, disk'.node? place = some .directory ↔ disk.node? place = some .directory

theorem SameDirectories.refl (disk : Disk) : SameDirectories disk disk := ⟨rfl, fun _ => .rfl⟩

theorem SameDirectories.symm (h : SameDirectories disk disk') : SameDirectories disk' disk :=
  ⟨h.home.symm, fun place => (h.directory_iff place).symm⟩

theorem SameDirectories.trans {disk'' : Disk} (h : SameDirectories disk disk')
    (h' : SameDirectories disk' disk'') : SameDirectories disk disk'' :=
  ⟨h'.home.trans h.home, fun place => (h'.directory_iff place).trans (h.directory_iff place)⟩

/-- A file takes the place of a file, or of nothing. -/
theorem SameDirectories.set (disk : Disk) (hplace : place ≠ [])
    (hnode : disk.node? place ≠ some .directory) (content : Bytes) :
    SameDirectories disk (disk.set place (.file content)) := by
  refine ⟨rfl, fun other => ?_⟩
  by_cases h : other = place
  · subst h
    rw [node?_set hplace]
    simp [hnode]
  · rw [node?_set_ne h]

theorem SameDirectories.erase (disk : Disk) (hplace : place ≠ [])
    (hnode : disk.node? place ≠ some .directory) : SameDirectories disk (disk.erase place) := by
  refine ⟨rfl, fun other => ?_⟩
  by_cases h : other = place
  · subst h
    rw [node?_erase hplace]
    simp [hnode]
  · rw [node?_erase_ne h]

namespace SameDirectories

theorem enterAll (h : SameDirectories disk disk') {directory last : Place} {ways : List String} :
    disk'.enterAll directory ways = .ok last ↔ disk.enterAll directory ways = .ok last := by
  have henter (directory next : Place) (way : String) :
      disk'.enter directory way = .ok next ↔ disk.enter directory way = .ok next := by
    rw [enter_eq_ok_iff, enter_eq_ok_iff, h.directory_iff]
  induction ways generalizing directory with
  | nil => rfl
  | cons way rest ih =>
    simp only [Disk.enterAll]
    cases hway : disk.enter directory way with
    | ok next =>
      rw [(henter directory next way).mpr hway]
      exact ih
    | error e =>
      cases hway' : disk'.enter directory way with
      | ok next => simp [(henter directory next way).mp hway'] at hway
      | error e' => simp

theorem follow (h : SameDirectories disk disk') {slash : Bool} {directory : Place}
    {names : List String} {target : Target} :
    disk'.follow slash directory names = .ok target ↔
      disk.follow slash directory names = .ok target := by
  rcases List.eq_nil_or_concat names with rfl | ⟨ways, name, rfl⟩
  · rfl
  · simp only [List.concat_eq_append, follow_append]
    cases hways : disk.enterAll directory ways with
    | ok parent => rw [h.enterAll.mpr hways]
    | error e =>
      cases hways' : disk'.enterAll directory ways with
      | ok parent => simp [h.enterAll.mp hways'] at hways
      | error e' => simp [Except.map]

end SameDirectories

/-- What stands in front of the names of a path. -/
def base (disk : Disk) (path : String) : Place :=
  if path.toList.head? = some '/' then [] else disk.home

/-- The texts that can be paths at all. -/
structure Walkable (path : String) : Prop where
  noNul : Char.ofNat 0 ∉ path.toList
  nonempty : path.toList ≠ []
  short : path.utf8ByteSize ≤ maxPathLength

theorem resolve_of_walkable {path : String} (h : Walkable path) :
    disk.resolve path =
      disk.follow (path.toList.getLast? == some '/') (disk.base path) (names path) := by
  have hempty : path.toList.isEmpty = false := by
    rw [List.isEmpty_eq_false_iff]
    exact h.nonempty
  simp only [resolve, if_neg h.noNul, hempty, Bool.false_eq_true, if_false,
    if_neg (Nat.not_lt.mpr h.short)]
  rfl

theorem walkable_of_resolve {path : String} {target : Target}
    (h : disk.resolve path = .ok target) : Walkable path := by
  unfold resolve at h
  simp only at h
  split at h
  · contradiction
  · rename_i hnul
    split at h
    · contradiction
    · rename_i hempty
      split at h
      · contradiction
      · rename_i hlong
        refine ⟨hnul, ?_, Nat.le_of_not_lt hlong⟩
        simpa using hempty

theorem SameDirectories.resolve (h : SameDirectories disk disk') {path : String} {target : Target} :
    disk'.resolve path = .ok target ↔ disk.resolve path = .ok target := by
  have hbase : disk'.base path = disk.base path := by rw [base, base, h.home]
  constructor
  · intro hok
    have hwalk := walkable_of_resolve hok
    rw [resolve_of_walkable hwalk, hbase] at hok
    rw [resolve_of_walkable hwalk]
    exact h.follow.mp hok
  · intro hok
    have hwalk := walkable_of_resolve hok
    rw [resolve_of_walkable hwalk] at hok
    rw [resolve_of_walkable hwalk, hbase]
    exact h.follow.mpr hok

/-- Only the node at the target decides whether there is a file, and what is in it. -/
theorem fileAt_congr {target : Target}
    (h : ∀ place, target.place? = some place → disk'.node? place = disk.node? place) :
    disk'.fileAt target = disk.fileAt target := by
  cases target with
  | directory => rfl
  | entry parent name slash =>
    have hnode := h (parent ++ [name]) rfl
    simp only [fileAt, hnode]

end Disk
end Gatehouse.Storage
