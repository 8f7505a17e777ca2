import Gatehouse.Proofs.Storage.Disk
import Gatehouse.Storage.Replace

namespace Gatehouse.Storage

theorem pieces_of_not_mem {cs : List Char} (h : '/' ∉ cs) : pieces cs = [cs] := by
  induction cs with
  | nil => rfl
  | cons c rest ih =>
    have hc : c ≠ '/' := fun he => h (he ▸ List.mem_cons_self)
    rw [pieces, if_neg hc, ih fun hmem => h (List.mem_cons_of_mem _ hmem)]

/-- What is put behind a path without a slash gets to the last piece. -/
theorem pieces_append (cs : List Char) : ∃ ways last, pieces cs = ways ++ [last] ∧
    ∀ more, '/' ∉ more → pieces (cs ++ more) = ways ++ [last ++ more] := by
  induction cs with
  | nil => exact ⟨[], [], rfl, fun more hmore => pieces_of_not_mem hmore⟩
  | cons c rest ih =>
    obtain ⟨ways, last, hpieces, hmore⟩ := ih
    by_cases hc : c = '/'
    · refine ⟨[] :: ways, last, ?_, fun more hslash => ?_⟩
      · rw [pieces, if_pos hc, hpieces, List.cons_append]
      · rw [List.cons_append, pieces, if_pos hc, hmore more hslash, List.cons_append]
    · cases ways with
      | nil =>
        refine ⟨[], c :: last, ?_, fun more hslash => ?_⟩
        · rw [pieces, if_neg hc, hpieces]
          rfl
        · rw [List.cons_append, pieces, if_neg hc, hmore more hslash]
          rfl
      | cons way ways =>
        refine ⟨(c :: way) :: ways, last, ?_, fun more hslash => ?_⟩
        · rw [pieces, if_neg hc, hpieces]
          rfl
        · rw [List.cons_append, pieces, if_neg hc, hmore more hslash]
          rfl

/-- What a sibling's name has more. -/
def ending : List Char := ['.', 't', 'm', 'p']

theorem toList_sibling (path : String) : (sibling path).toList = path.toList ++ ending := by
  simp [sibling, ending, String.toList_append]

/-- The names differ in the last one only, which the path itself may lack. -/
theorem names_sibling (path : String) : ∃ ways last,
    names path = ways ++ (if last = [] then [] else [String.ofList last]) ∧
    names (sibling path) = ways ++ [String.ofList (last ++ ending)] := by
  obtain ⟨ways, last, hpieces, hmore⟩ := pieces_append path.toList
  refine ⟨((ways.filter fun piece => !piece.isEmpty).map String.ofList), last, ?_, ?_⟩
  · rw [names, hpieces]
    by_cases hlast : last = [] <;> simp [hlast]
  · rw [names, toList_sibling, hmore ending (by decide)]
    simp [ending]

theorem ofList_ending_ne (last : List Char) :
    String.ofList (last ++ ending) ≠ "." ∧ String.ofList (last ++ ending) ≠ ".." ∧
      String.ofList (last ++ ending) ≠ String.ofList last := by
  have hne (cs : List Char) (h : (last ++ ending).length ≠ cs.length) :
      String.ofList (last ++ ending) ≠ String.ofList cs := by
    intro he
    exact h (congrArg List.length (String.ofList_injective he))
  refine ⟨hne ['.'] ?_, hne ['.', '.'] ?_, hne last ?_⟩ <;> simp [ending]

theorem Disk.walkable_of_sibling {path : String} (h : Disk.Walkable (sibling path))
    (hpath : path.toList ≠ []) : Disk.Walkable path := by
  refine ⟨?_, hpath, ?_⟩
  · intro hnul
    refine h.noNul ?_
    rw [toList_sibling]
    exact List.mem_append_left _ hnul
  · refine Nat.le_trans ?_ h.short
    rw [sibling, String.utf8ByteSize_append]
    exact Nat.le_add_right _ _

namespace Disk
variable {disk disk' : Disk} {path : String}

theorem base_sibling (hpath : path.toList ≠ []) : disk.base (sibling path) = disk.base path := by
  have hhead : (path.toList ++ ending).head? = path.toList.head? := by
    cases hcs : path.toList with
    | nil => exact absurd hcs hpath
    | cons c rest => rfl
  rw [base, base, toList_sibling, hhead]

/-- Names that can all be entered lead somewhere, and not to anything in the last directory. -/
theorem follow_of_enterAll {directory parent : Place} {ways : List String}
    (h : disk.enterAll directory ways = .ok parent) (slash : Bool) (name : String) :
    ∃ target, disk.follow slash directory ways = .ok target ∧
      target.place? ≠ some (parent ++ [name]) := by
  rcases List.eq_nil_or_concat ways with rfl | ⟨before, way, rfl⟩
  · exact ⟨.directory, rfl, by simp [Target.place?]⟩
  · simp only [List.concat_eq_append, enterAll_append, follow_append] at h ⊢
    cases hbefore : disk.enterAll directory before with
    | error e => simp [hbefore, Except.bind] at h
    | ok above =>
      have henter : disk.enter above way = .ok parent := by
        simp only [hbefore, Except.bind, enterAll] at h
        cases hway : disk.enter above way with
        | error e => simp [hway] at h
        | ok next => simpa [hway] using h
      refine ⟨_, rfl, ?_⟩
      split
      · simp [Target.place?]
      · rename_i hplain
        rw [not_or] at hplain
        rcases enter_eq_ok_iff.mp henter with ⟨he, -⟩ | ⟨he, -⟩ | ⟨-, -, -, rfl⟩
        · exact absurd he hplain.1
        · exact absurd he hplain.2
        · simp [Target.place?]

/-- Whoever finds the sibling finds the file as well, at another place, if a path is given at all. -/
theorem resolve_sibling {target : Target} (h : disk.resolve (sibling path) = .ok target) :
    ∃ parent name, target = .entry parent name false ∧
      (path = "" ∨ ∃ t, disk.resolve path = .ok t ∧ t.place? ≠ some (parent ++ [name])) := by
  obtain ⟨ways, last, hnames, hsibling⟩ := names_sibling path
  obtain ⟨hdot, hdots, hother⟩ := ofList_ending_ne last
  have hwalk := walkable_of_resolve h
  have hslash : ((sibling path).toList.getLast? == some '/') = false := by
    rw [toList_sibling]
    simp [ending]
  rw [resolve_of_walkable hwalk, hslash, hsibling, follow_append] at h
  cases hways : disk.enterAll (disk.base (sibling path)) ways with
  | error e => simp [hways, Except.map] at h
  | ok parent =>
    simp only [hways, Except.map, hdot, hdots, or_self, if_false, Except.ok.injEq] at h
    refine ⟨parent, _, h.symm, ?_⟩
    by_cases hempty : path.toList = []
    · exact .inl (by simpa using hempty)
    · rw [base_sibling hempty] at hways
      rw [resolve_of_walkable (walkable_of_sibling hwalk hempty), hnames]
      refine .inr ?_
      by_cases hlast : last = []
      · -- The path ends with a slash, or is one: it leads to the directory that the sibling is in.
        rw [if_pos hlast, List.append_nil]
        exact follow_of_enterAll hways _ _
      · rw [if_neg hlast, follow_append, hways]
        refine ⟨_, rfl, ?_⟩
        split
        · simp [Target.place?]
        · simpa [Target.place?] using hother.symm

/-- A target at which a file can be put, over another one if there is one. -/
def Accepts (disk : Disk) (target : Target) (place : Place) : Prop :=
  ∃ parent name, target = .entry parent name false ∧ isTooLong name = false ∧
    disk.node? (parent ++ [name]) ≠ some .directory ∧ place = parent ++ [name]

variable {target : Target} {place : Place}

theorem freeAt_eq_ok_iff : disk.freeAt target = .ok place ↔ disk.Accepts target place := by
  cases target with
  | directory => simp [freeAt, Accepts]
  | entry parent name slash =>
    constructor
    · intro h
      simp only [freeAt] at h
      split at h
      · contradiction
      · rename_i hslash
        split at h
        · contradiction
        · rename_i hlong
          split at h
          · contradiction
          · rename_i hnode
            rw [Bool.not_eq_true] at hslash hlong
            exact ⟨parent, name, by rw [hslash], hlong, hnode, (Except.ok.inj h).symm⟩
    · rintro ⟨_, _, he, hlong, hnode, rfl⟩
      obtain ⟨rfl, rfl, rfl⟩ := Target.entry.inj he
      simp only [freeAt, hlong, Bool.false_eq_true, if_false, if_neg hnode]

/-- A file that is moved lands where a new one could be, though a refusal reads differently. -/
theorem landingAt_eq_ok_iff : disk.landingAt target = .ok place ↔ disk.Accepts target place := by
  rw [← freeAt_eq_ok_iff]
  cases target with
  | directory => simp [freeAt, landingAt]
  | entry parent name slash =>
    simp only [freeAt, landingAt]
    cases slash <;> cases isTooLong name <;> simp

/-- A path leads to a place, whatever is there. -/
def LeadsTo (disk : Disk) (path : String) (place : Place) : Prop :=
  ∃ target, disk.resolve path = .ok target ∧ target.place? = some place

/-- A file can be put at the end of a path. -/
def Takes (disk : Disk) (path : String) (place : Place) : Prop :=
  ∃ target, disk.resolve path = .ok target ∧ disk.Accepts target place

namespace Takes

theorem leadsTo (h : disk.Takes path place) : disk.LeadsTo path place := by
  obtain ⟨target, hresolve, parent, name, rfl, -, -, rfl⟩ := h
  exact ⟨_, hresolve, rfl⟩

theorem place_ne_nil (h : disk.Takes path place) : place ≠ [] := by
  obtain ⟨target, -, parent, name, -, -, -, rfl⟩ := h
  simp

theorem not_directory (h : disk.Takes path place) : disk.node? place ≠ some .directory := by
  obtain ⟨target, -, parent, name, -, -, hnode, rfl⟩ := h
  exact hnode

theorem of_same (h : disk.Takes path place) (hsame : SameDirectories disk disk') :
    disk'.Takes path place := by
  obtain ⟨target, hresolve, parent, name, rfl, hshort, hnode, rfl⟩ := h
  exact ⟨_, hsame.resolve.mpr hresolve, parent, name, rfl, hshort,
    fun hdir => hnode ((hsame.directory_iff _).mp hdir), rfl⟩

theorem fileAt {content : Bytes} (h : disk.Accepts target place)
    (hnode : disk.node? place = some (.file content)) :
    disk.fileAt target = .ok (place, content) := by
  obtain ⟨parent, name, rfl, hshort, -, rfl⟩ := h
  simp [Disk.fileAt, hshort, hnode]

theorem file {content : Bytes} (h : disk.Takes path place)
    (hnode : disk.node? place = some (.file content)) : disk.file path = .ok (place, content) := by
  obtain ⟨target, hresolve, haccepts⟩ := h
  simp only [Disk.file, hresolve, bind, Except.bind, fileAt haccepts hnode]

theorem read {content : Bytes} (h : disk.Takes path place)
    (hnode : disk.node? place = some (.file content)) : disk.read path = .ok content := by
  rw [Disk.read, h.file hnode]
  rfl

end Takes

theorem create_eq_ok_iff :
    disk.create path = .ok disk' ↔
      ∃ place, disk.Takes path place ∧ disk' = disk.set place (.file []) := by
  unfold create Takes
  cases disk.resolve path with
  | error e => simp [bind, Except.bind, Except.map]
  | ok target =>
    simp only [bind, Except.bind, Except.ok.injEq, exists_eq_left']
    cases hfree : disk.freeAt target with
    | error e => simp [Except.map, ← freeAt_eq_ok_iff, hfree]
    | ok place => simp [Except.map, ← freeAt_eq_ok_iff, hfree, eq_comm]

/-- Everything but the file at a path and its sibling is as it was. -/
structure Confined (path : String) (disk disk' : Disk) : Prop where
  same : SameDirectories disk disk'
  rest : ∀ place, ¬ disk.LeadsTo path place → ¬ disk.LeadsTo (sibling path) place →
    disk'.node? place = disk.node? place

/-- The new content is being gathered in the sibling, and nothing else has changed. -/
structure Gathered (path : String) (disk : Disk) (place : Place) (content : Bytes) (disk' : Disk) :
    Prop where
  takes : disk.Takes (sibling path) place
  same : SameDirectories disk disk'
  content : disk'.node? place = some (.file content)
  rest : ∀ other, other ≠ place → disk'.node? other = disk.node? other

namespace Gathered
variable {content : Bytes}

theorem set {disk₁ : Disk} (h : Gathered path disk place content disk₁) (content' : Bytes) :
    Gathered path disk place content' (disk₁.set place (.file content')) := by
  have hnode : disk₁.node? place ≠ some .directory := by simp [h.content]
  refine ⟨h.takes, h.same.trans (.set disk₁ h.takes.place_ne_nil hnode _),
    node?_set h.takes.place_ne_nil, fun other hother => ?_⟩
  rw [node?_set_ne hother, h.rest other hother]

theorem of_create (h : disk.create (sibling path) = .ok disk') :
    ∃ place, Gathered path disk place [] disk' := by
  obtain ⟨place, htakes, rfl⟩ := create_eq_ok_iff.mp h
  exact ⟨place, htakes, .set disk htakes.place_ne_nil htakes.not_directory _,
    node?_set htakes.place_ne_nil, fun other hother => node?_set_ne hother⟩

/-- The file itself is what it was, or is still missing. -/
theorem read (h : Gathered path disk place content disk') : disk'.read path = disk.read path := by
  obtain ⟨target, hresolve, haccepts⟩ := h.takes
  obtain ⟨parent, name, he, hpath⟩ := resolve_sibling hresolve
  obtain rfl : place = parent ++ [name] := by
    obtain ⟨_, _, he', -, -, hplace⟩ := haccepts
    rw [he, Target.entry.injEq] at he'
    rw [hplace, he'.1, he'.2.1]
  rcases hpath with rfl | ⟨t, ht, hother⟩
  · -- An empty path has a sibling, but leads nowhere itself.
    rfl
  · have ht' := h.same.resolve.mpr ht
    have hfile : disk'.fileAt t = disk.fileAt t := by
      refine fileAt_congr fun other hplace => h.rest other ?_
      rintro rfl
      exact hother hplace
    simp only [Disk.read, file, ht, ht', bind, Except.bind, hfile]

/-- The next chunk comes behind what is there. -/
theorem append {disk₁ : Disk} (h : Gathered path disk place content disk₁) (chunk : Bytes) :
    ∃ disk₂, disk₁.append (sibling path) chunk = .ok disk₂ ∧
      Gathered path disk place (content ++ chunk) disk₂ := by
  refine ⟨_, ?_, h.set (content ++ chunk)⟩
  rw [Disk.append, (h.takes.of_same h.same).file h.content]
  rfl

end Gathered

/-- The tree lets a file be made beside a path and moved to it. -/
structure Allows (disk : Disk) (path : String) : Prop where
  sibling : ∃ place, disk.Takes (sibling path) place
  landing : ∃ place, disk.Takes path place

theorem Allows.of_same (h : disk.Allows path) (hsame : SameDirectories disk disk') :
    disk'.Allows path := by
  obtain ⟨⟨place, hplace⟩, landing, hlanding⟩ := h
  exact ⟨⟨place, hplace.of_same hsame⟩, landing, hlanding.of_same hsame⟩

/-- The new content is in the file. -/
structure Replaced (path : String) (disk : Disk) (content : Bytes) (disk' : Disk) : Prop where
  allowed : disk.Allows path
  confined : Confined path disk disk'
  content : disk'.read path = .ok content

/-- The file is what it was before, and so is everything but the sibling. -/
structure Kept (path : String) (disk disk' : Disk) : Prop where
  same : SameDirectories disk disk'
  rest : ∀ place, ¬ disk.LeadsTo (sibling path) place → disk'.node? place = disk.node? place
  content : disk'.read path = disk.read path

theorem Kept.refl (path : String) (disk : Disk) : Kept path disk disk :=
  ⟨.refl disk, fun _ _ => rfl, rfl⟩

theorem Kept.confined (h : Kept path disk disk') : Confined path disk disk' :=
  ⟨h.same, fun place _ => h.rest place⟩

theorem Gathered.kept {content : Bytes} (h : Gathered path disk place content disk') :
    Kept path disk disk' := by
  refine ⟨h.same, fun other hother => h.rest other ?_, h.read⟩
  rintro rfl
  exact hother h.takes.leadsTo

theorem Gathered.moved {content : Bytes} {disk₁ : Disk} {landing : Place}
    (h : Gathered path disk place content disk₁) (hlanding : disk₁.Takes path landing) :
    Replaced path disk content ((disk₁.erase place).set landing (.file content)) := by
  have hplace : disk₁.node? place ≠ some .directory := by simp [h.content]
  have herase := SameDirectories.erase disk₁ h.takes.place_ne_nil hplace
  have hnode : (disk₁.erase place).node? landing ≠ some .directory :=
    mt (herase.directory_iff landing).mp hlanding.not_directory
  have hset := SameDirectories.set _ hlanding.place_ne_nil hnode content
  refine ⟨⟨⟨place, h.takes⟩, landing, hlanding.of_same h.same.symm⟩,
    ⟨h.same.trans (herase.trans hset), fun other hpath hsibling => ?_⟩, ?_⟩
  · have hother : other ≠ landing := by
      rintro rfl
      obtain ⟨target, hresolve, hplace'⟩ := hlanding.leadsTo
      exact hpath ⟨target, h.same.resolve.mp hresolve, hplace'⟩
    have hother' : other ≠ place := by
      rintro rfl
      exact hsibling h.takes.leadsTo
    rw [node?_set_ne hother, node?_erase_ne hother', h.rest other hother']
  · exact ((hlanding.of_same herase).of_same hset).read (node?_set hlanding.place_ne_nil)

/-- The move succeeds exactly if the file can be put where the path leads to, and then puts all of
the content there. -/
theorem Gathered.rename {content : Bytes} {disk₁ : Disk}
    (h : Gathered path disk place content disk₁) :
    (∃ disk₂, disk₁.rename (sibling path) path = .ok disk₂ ∧ Replaced path disk content disk₂) ∨
    (∀ landing, ¬ disk.Takes path landing) ∧
      ∃ e, disk₁.rename (sibling path) path = .error e := by
  obtain ⟨origin, horigin, haccepts⟩ := h.takes.of_same h.same
  have hfile := Takes.fileAt haccepts h.content
  have hplain : origin ≠ .directory := by
    obtain ⟨_, _, rfl, -⟩ := haccepts
    simp
  have htakes (landing : Place) : disk.Takes path landing ↔ ∃ goal,
      disk₁.resolve path = .ok goal ∧ disk₁.landingAt goal = .ok landing := by
    simp only [landingAt_eq_ok_iff]
    exact ⟨fun ht => ht.of_same h.same, fun ht => Takes.of_same ht h.same.symm⟩
  cases hgoal : disk₁.resolve path with
  | error e =>
    refine .inr ⟨fun landing => ?_, e, ?_⟩
    · simp [htakes, hgoal]
    · simp [Disk.rename, horigin, hgoal, bind, Except.bind]
  | ok goal =>
    cases hland : disk₁.landingAt goal with
    | error e =>
      refine .inr ⟨fun landing => ?_, ?_⟩
      · simp [htakes, hgoal, hland]
      · by_cases hdir : goal = .directory
        · exact ⟨.busy, by simp [Disk.rename, horigin, hgoal, hdir, bind, Except.bind, throw,
            throwThe, MonadExceptOf.throw]⟩
        · exact ⟨e, by simp [Disk.rename, horigin, hgoal, hdir, hplain, hfile, hland, bind,
            Except.bind]⟩
    | ok landing =>
      have hlanding : disk₁.Takes path landing := ⟨goal, hgoal, landingAt_eq_ok_iff.mp hland⟩
      have hdir : goal ≠ .directory := by
        obtain ⟨_, _, rfl, -⟩ := landingAt_eq_ok_iff.mp hland
        simp
      refine .inl ⟨_, ?_, h.moved hlanding⟩
      simp [Disk.rename, horigin, hgoal, hdir, hplain, hfile, hland, bind, Except.bind, pure,
        Except.pure]

end Disk

open Disk

section Run
variable {fails : Nat → Option Error} {path : String} {disk : Disk}

theorem runSteps_cons (fails : Nat → Option Error) (path : String) (step : Step)
    (rest : List Step) (disk : Disk) :
    (∃ e, runSteps fails path (step :: rest) disk = (.error e, disk)) ∨
    ∃ disk', step.run path disk = .ok disk' ∧
      runSteps fails path (step :: rest) disk = runSteps fails path rest disk' := by
  rw [runSteps]
  cases fails rest.length with
  | some e => exact .inl ⟨e, rfl⟩
  | none =>
    cases step.run path disk with
    | error e => exact .inl ⟨e, rfl⟩
    | ok disk' => exact .inr ⟨disk', rfl, rfl⟩

theorem runSteps_cons_of_ok {step : Step} {rest : List Step} {disk' : Disk}
    (hfails : fails rest.length = none) (hrun : step.run path disk = .ok disk') :
    runSteps fails path (step :: rest) disk = runSteps fails path rest disk' := by
  rw [runSteps, hfails, hrun]

theorem fails_eq_none_of_ok {steps : List Step} (h : (runSteps fails path steps disk).1 = .ok ())
    {i : Nat} (hi : i < steps.length) : fails i = none := by
  induction steps generalizing disk with
  | nil => simp at hi
  | cons step rest ih =>
    cases hfails : fails rest.length with
    | some e => simp [runSteps, hfails] at h
    | none =>
      rcases runSteps_cons fails path step rest disk with ⟨e, hstop⟩ | ⟨disk', -, hgo⟩
      · simp [hstop] at h
      · rw [hgo] at h
        rcases Nat.lt_succ_iff_lt_or_eq.mp hi with hlt | rfl
        · exact ih h hlt
        · exact hfails

/-- How far steps towards a new content have come, with so many still to be taken. Once none is left
the content is in the file, and until then the file is what it was. -/
inductive Reached (path : String) (disk : Disk) (content : Bytes) (left : Nat) :
    Except Error Unit × Disk → Prop
  | stopped {result : Except Error Unit} {disk' : Disk} (kept : Kept path disk disk')
      (unfinished : result = .ok () → 0 < left) : Reached path disk content left (result, disk')
  | done {disk' : Disk} (replaced : Replaced path disk content disk') (finished : left = 0) :
      Reached path disk content left (.ok (), disk')

theorem Reached.failed {content : Bytes} {left : Nat} {disk' : Disk} (kept : Kept path disk disk')
    (e : Error) : Reached path disk content left (.error e, disk') :=
  .stopped kept (by simp)

section Whole
variable {content : Bytes} {outcome : Except Error Unit × Disk}

theorem Reached.replaced (h : Reached path disk content 0 outcome) (hok : outcome.1 = .ok ()) :
    Replaced path disk content outcome.2 := by
  cases h with
  | stopped _ unfinished => exact absurd (unfinished hok) (Nat.lt_irrefl 0)
  | done replaced _ => exact replaced

theorem Reached.kept (h : Reached path disk content 0 outcome) (hfailed : outcome.1 ≠ .ok ()) :
    Kept path disk outcome.2 := by
  cases h with
  | stopped kept _ => exact kept
  | done _ _ => exact absurd rfl hfailed

end Whole

/-- The steps that are left once the sibling is there. -/
def remaining (chunks : List Bytes) : List Step := chunks.map .write ++ [.sync, .rename]

theorem Reached.of_gathered {place : Place} {content : Bytes} {disk₁ : Disk}
    (h : Gathered path disk place content disk₁) (fails : Nat → Option Error)
    (chunks : List Bytes) (n : Nat) :
    Reached path disk (content ++ chunks.flatten) (chunks.length + 2 - n)
      (runSteps fails path ((remaining chunks).take n) disk₁) := by
  induction chunks generalizing content disk₁ n with
  | nil =>
    match n with
    | 0 => exact .stopped h.kept (by simp)
    | 1 =>
      rcases runSteps_cons fails path .sync [] disk₁ with ⟨e, hstop⟩ | ⟨_, hsync, hgo⟩
      · exact hstop ▸ .failed h.kept e
      · cases hsync
        exact hgo ▸ .stopped h.kept (by simp)
    | n + 2 =>
      have hall : (remaining []).take (n + 2) = [.sync, .rename] := by simp [remaining]
      rw [hall]
      rcases runSteps_cons fails path .sync [.rename] disk₁ with ⟨e, hstop⟩ | ⟨_, hsync, hgo⟩
      · exact hstop ▸ .failed h.kept e
      · cases hsync
        rw [hgo]
        rcases runSteps_cons fails path .rename [] disk₁ with ⟨e, hstop⟩ | ⟨disk₂, hmove, hgo⟩
        · exact hstop ▸ .failed h.kept e
        · rw [hgo]
          rcases h.rename with ⟨_, hrename, hreplaced⟩ | ⟨-, e, hrename⟩
          · obtain rfl := Except.ok.inj (hrename.symm.trans hmove)
            exact .done (by simpa using hreplaced) (by simp)
          · cases hrename.symm.trans hmove
  | cons chunk rest ih =>
    cases n with
    | zero => exact .stopped h.kept (by simp)
    | succ n =>
      have hnext : (remaining (chunk :: rest)).take (n + 1) =
          .write chunk :: (remaining rest).take n := rfl
      rw [hnext]
      rcases runSteps_cons fails path (.write chunk) ((remaining rest).take n) disk₁ with
        ⟨e, hstop⟩ | ⟨disk₂, hwrite, hgo⟩
      · exact hstop ▸ .failed h.kept e
      · obtain ⟨_, happend, hgathered⟩ := h.append chunk
        obtain rfl := Except.ok.inj (happend.symm.trans hwrite)
        have hrest := ih hgathered n
        have hleft : (chunk :: rest).length + 2 - (n + 1) = rest.length + 2 - n := by
          simp only [List.length_cons]
          omega
        rw [hgo, hleft, List.flatten_cons, ← List.append_assoc]
        exact hrest

/-- Wherever the steps of a replacement end, the file has its old content or all of the new one. -/
theorem runSteps_replacement (fails : Nat → Option Error) (path : String) (chunks : List Bytes)
    (n : Nat) (disk : Disk) :
    Reached path disk chunks.flatten (chunks.length + 3 - n)
      (runSteps fails path ((replacement chunks).take n) disk) := by
  cases n with
  | zero => exact .stopped (.refl path disk) (by simp)
  | succ n =>
    have hnext : (replacement chunks).take (n + 1) = .create :: (remaining chunks).take n := rfl
    rw [hnext]
    rcases runSteps_cons fails path .create ((remaining chunks).take n) disk with
      ⟨e, hstop⟩ | ⟨disk₁, hcreate, hgo⟩
    · exact hstop ▸ .failed (.refl path disk) e
    · obtain ⟨place, hgathered⟩ := Gathered.of_create hcreate
      have hrest := Reached.of_gathered hgathered fails chunks n
      have hleft : chunks.length + 3 - (n + 1) = chunks.length + 2 - n := by omega
      rw [hgo, hleft]
      exact hrest

theorem length_replacement (chunks : List Bytes) :
    (replacement chunks).length = chunks.length + 3 := by
  simp [replacement]

/-- All steps of a replacement: they fail and the file is what it was, or the content is in it. -/
theorem runSteps_replacement_whole (fails : Nat → Option Error) (path : String)
    (chunks : List Bytes) (disk : Disk) :
    Reached path disk chunks.flatten 0 (runSteps fails path (replacement chunks) disk) := by
  have hall := runSteps_replacement fails path chunks (chunks.length + 3) disk
  rw [← length_replacement, List.take_length, length_replacement, Nat.sub_self] at hall
  exact hall

theorem replaced_of_ok {chunks : List Bytes}
    (h : (runSteps fails path (replacement chunks) disk).1 = .ok ()) :
    Replaced path disk chunks.flatten (runSteps fails path (replacement chunks) disk).2 :=
  (runSteps_replacement_whole fails path chunks disk).replaced h

theorem kept_of_ne_ok {chunks : List Bytes}
    (h : (runSteps fails path (replacement chunks) disk).1 ≠ .ok ()) :
    Kept path disk (runSteps fails path (replacement chunks) disk).2 :=
  (runSteps_replacement_whole fails path chunks disk).kept h

theorem Disk.Gathered.remaining_ok {place : Place} {content : Bytes} {disk₁ : Disk}
    (h : Gathered path disk place content disk₁) (hallows : disk.Allows path) (chunks : List Bytes)
    (hfails : ∀ i < chunks.length + 2, fails i = none) :
    (runSteps fails path (remaining chunks) disk₁).1 = .ok () := by
  induction chunks generalizing content disk₁ with
  | nil =>
    rcases h.rename with ⟨disk₂, hmove, -⟩ | ⟨hnone, -⟩
    · have hsync : runSteps fails path (remaining []) disk₁ = runSteps fails path [.rename] disk₁ :=
        runSteps_cons_of_ok (hfails 1 (by simp)) rfl
      have hrename : runSteps fails path [.rename] disk₁ = runSteps fails path [] disk₂ :=
        runSteps_cons_of_ok (hfails 0 (by simp)) hmove
      rw [hsync, hrename, runSteps]
    · obtain ⟨landing, hlanding⟩ := hallows.landing
      exact absurd hlanding (hnone landing)
  | cons chunk rest ih =>
    obtain ⟨disk₂, happend, hgathered⟩ := h.append chunk
    have hwrite : runSteps fails path (remaining (chunk :: rest)) disk₁ =
        runSteps fails path (remaining rest) disk₂ :=
      runSteps_cons_of_ok (hfails (remaining rest).length (by simp [remaining])) happend
    rw [hwrite]
    exact ih hgathered fun i hi => hfails i (by simp only [List.length_cons]; omega)

/-- A replacement succeeds exactly if no step fails from outside and the tree allows it. -/
theorem runSteps_replacement_ok_iff (chunks : List Bytes) :
    (runSteps fails path (replacement chunks) disk).1 = .ok () ↔
      (∀ i < chunks.length + 3, fails i = none) ∧ disk.Allows path := by
  constructor
  · intro h
    refine ⟨fun i hi => fails_eq_none_of_ok h ?_, (replaced_of_ok h).allowed⟩
    rwa [length_replacement]
  · rintro ⟨hfails, hallows⟩
    obtain ⟨place, hplace⟩ := hallows.sibling
    have hcreate : disk.create (sibling path) = .ok (disk.set place (.file [])) :=
      create_eq_ok_iff.mpr ⟨place, hplace, rfl⟩
    obtain ⟨place', hgathered⟩ := Gathered.of_create hcreate
    have hfirst : runSteps fails path (replacement chunks) disk =
        runSteps fails path (remaining chunks) (disk.set place (.file [])) :=
      runSteps_cons_of_ok (hfails (remaining chunks).length (by simp [remaining])) hcreate
    rw [hfirst]
    exact hgathered.remaining_ok hallows chunks fun i hi => hfails i (by omega)

end Run

end Gatehouse.Storage
