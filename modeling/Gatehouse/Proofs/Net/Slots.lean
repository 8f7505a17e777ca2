import Gatehouse.Net.Slots
import Mathlib.Data.List.Nodup

namespace Gatehouse.Slots

/-- The guards that the connections have. -/
def guards (s : Slots) : List Nat := s.connections.filterMap Connection.guardNumber

/-- The slots add up, each connection has a number of its own, and the guards that live are those of
the connections. -/
structure Balanced (s : Slots) (max : Nat) : Prop where
  conserved : s.connections.length + (if s.accepting then 1 else 0) + s.available = max
  distinct : (s.connections.map Connection.number).Nodup
  recent : ∀ c ∈ s.connections, c.number < s.next
  live : s.tracker.live.Perm s.guards
  counted : s.tracker.active = s.guards.length

/-- The connections, with the guard of one of them set. -/
def setGuard (s : Slots) (number : Nat) (g : Option Nat) : List Connection :=
  s.connections.map fun c => if c.number = number then { c with guardNumber := g } else c

variable {s s' : Slots} {max number : Nat}

theorem track?_of_find {c : Connection} (h : s.find? number = some c) (hnone : c.guardNumber = none) :
    s.track? number = some { s with
      tracker := s.tracker.track.2
      connections := s.setGuard number (some s.tracker.next) } := by
  obtain ⟨n, g⟩ := c
  obtain rfl : g = none := hnone
  unfold track?
  rw [h]
  rfl

theorem untrack?_of_find {c : Connection} {g : Nat} (h : s.find? number = some c)
    (hsome : c.guardNumber = some g) :
    s.untrack? number = some { s with
      tracker := s.tracker.untrack g
      connections := s.setGuard number none } := by
  obtain ⟨n, g'⟩ := c
  obtain rfl : g' = some g := hsome
  unfold untrack?
  rw [h]
  rfl

theorem release?_of_find {c : Connection} (h : s.find? number = some c)
    (hnone : c.guardNumber = none) :
    s.release? number = some { s with
      available := s.available + 1
      connections := s.connections.filter fun c => c.number ≠ number } := by
  obtain ⟨n, g⟩ := c
  obtain rfl : g = none := hnone
  unfold release?
  rw [h]

/-- Whoever gets a guard had none. -/
theorem track?_eq_some (h : s.track? number = some s') :
    ∃ c, s.find? number = some c ∧ c.guardNumber = none := by
  unfold track? at h
  split at h
  next n hfind => exact ⟨_, hfind, rfl⟩
  next => contradiction

theorem untrack?_eq_some (h : s.untrack? number = some s') :
    ∃ c g, s.find? number = some c ∧ c.guardNumber = some g := by
  unfold untrack? at h
  split at h
  next n g hfind => exact ⟨_, g, hfind, rfl⟩
  next => contradiction

theorem release?_eq_some (h : s.release? number = some s') :
    ∃ c, s.find? number = some c ∧ c.guardNumber = none := by
  unfold release? at h
  split at h
  next n hfind => exact ⟨_, hfind, rfl⟩
  next => contradiction

theorem number_of_find? {c : Connection} (h : s.find? number = some c) : c.number = number := by
  have hfound := List.find?_some h
  rwa [beq_iff_eq] at hfound

theorem Balanced.find?_of_le (h : s.Balanced max) (hle : s.next ≤ number) : s.find? number = none := by
  rw [find?, List.find?_eq_none]
  intro c hc
  have hrecent := h.recent c hc
  simp only [beq_iff_eq]
  omega

/-- The connection of a number, and the ones around it, which have other numbers. -/
theorem Balanced.split (h : s.Balanced max) {c : Connection} (hfind : s.find? number = some c) :
    ∃ before after, s.connections = before ++ c :: after ∧ c.number = number ∧
      ∀ d ∈ before ++ after, d.number ≠ number := by
  have hnumber := number_of_find? hfind
  obtain ⟨before, after, hsplit⟩ := List.append_of_mem (List.mem_of_find?_eq_some hfind)
  refine ⟨before, after, hsplit, hnumber, ?_⟩
  have hdistinct := h.distinct
  rw [hsplit, List.map_append, List.map_cons, List.nodup_middle, List.nodup_cons, hnumber,
    ← List.map_append] at hdistinct
  intro d hd hsame
  exact hdistinct.1 (List.mem_map.mpr ⟨d, hd, hsame⟩)

theorem number_setGuard (s : Slots) (number : Nat) (g : Option Nat) :
    (s.setGuard number g).map Connection.number = s.connections.map Connection.number := by
  rw [setGuard, List.map_map]
  refine List.map_congr_left ?_
  intro c _
  simp only [Function.comp_apply]
  split <;> rfl

/-- One guard in a row of guards is set. -/
theorem Balanced.guards_setGuard (h : s.Balanced max) {c : Connection}
    (hfind : s.find? number = some c) (g : Option Nat) :
    ∃ before after, s.guards = before ++ c.guardNumber.toList ++ after ∧
      (s.setGuard number g).filterMap Connection.guardNumber = before ++ g.toList ++ after := by
  obtain ⟨before, after, hsplit, hnumber, hothers⟩ := h.split hfind
  have hstay (l : List Connection) (hl : ∀ d ∈ l, d.number ≠ number) :
      (l.map fun c => if c.number = number then { c with guardNumber := g } else c) = l := by
    refine (List.map_congr_left ?_).trans (List.map_id' l)
    intro d hd
    exact if_neg (hl d hd)
  refine ⟨before.filterMap Connection.guardNumber, after.filterMap Connection.guardNumber, ?_, ?_⟩
  · rw [guards, hsplit, List.filterMap_append, List.filterMap_cons]
    cases c.guardNumber <;> simp
  · rw [setGuard, hsplit, List.map_append, List.map_cons, if_pos hnumber,
      hstay before fun d hd => hothers d (List.mem_append_left _ hd),
      hstay after fun d hd => hothers d (List.mem_append_right _ hd),
      List.filterMap_append, List.filterMap_cons]
    cases g <;> simp

theorem find?_setGuard {c : Connection} (hfind : s.find? number = some c) (g : Option Nat) (m : Nat) :
    (s.setGuard number g).find? (·.number == m) =
      if m = number then some ⟨number, g⟩ else s.find? m := by
  have hsame : ((·.number == m) ∘ fun c : Connection =>
      if c.number = number then { c with guardNumber := g } else c) = (·.number == m) := by
    funext d
    simp only [Function.comp_apply]
    split <;> rfl
  rw [setGuard, List.find?_map, hsame]
  change (s.find? m).map _ = _
  by_cases hm : m = number
  · subst hm
    have hnumber := number_of_find? hfind
    rw [if_pos rfl, hfind, Option.map_some, if_pos hnumber, hnumber]
  · rw [if_neg hm]
    cases hfound : s.find? m with
    | none => rfl
    | some d =>
      have hd := number_of_find? hfound
      rw [Option.map_some, if_neg (by rw [hd]; exact hm)]

theorem find?_filter_ne (s : Slots) (number m : Nat) :
    (s.connections.filter fun c => c.number ≠ number).find? (·.number == m) =
      if m = number then none else s.find? m := by
  rw [List.find?_filter]
  by_cases hm : m = number
  · rw [if_pos hm, List.find?_eq_none]
    intro c _
    simp only [ne_eq, decide_not, Bool.not_eq_true', decide_eq_false_iff_not, beq_iff_eq,
      decide_eq_true_eq, not_and]
    intro hne hnumber
    exact hne (hnumber.trans hm)
  · rw [if_neg hm, find?]
    congr 1
    funext c
    by_cases hc : c.number = m
    · simp [hc, hm]
    · simp [hc]

theorem Balanced.find?_append_next (h : s.Balanced max) (m : Nat) :
    (s.connections ++ [Connection.mk s.next none]).find? (·.number == m) =
      if m = s.next then some ⟨s.next, none⟩ else s.find? m := by
  rw [List.find?_append]
  by_cases hm : m = s.next
  · have hnone := h.find?_of_le (Nat.le_of_eq hm.symm)
    rw [find?] at hnone
    rw [if_pos hm, hnone, hm]
    simp
  · have hother : [Connection.mk s.next none].find? (·.number == m) = none := by
      simp [Ne.symm hm]
    rw [if_neg hm, hother, Option.or_none]
    rfl

namespace Balanced

theorem acquire (h : s.Balanced max) (hact : s.acquire? = some s') : s'.Balanced max := by
  unfold acquire? at hact
  split at hact
  next => contradiction
  next hfree =>
    rw [Bool.or_eq_true, not_or, beq_iff_eq] at hfree
    obtain ⟨hidle, hfree⟩ := hfree
    cases hact
    refine ⟨?_, h.distinct, h.recent, h.live, h.counted⟩
    have hconserved := h.conserved
    rw [if_neg hidle] at hconserved
    simp only [if_true]
    omega

theorem arrive (h : s.Balanced max) (hact : s.arrive? = some s') : s'.Balanced max := by
  unfold arrive? at hact
  split at hact
  next haccepting =>
    cases hact
    have hconserved := h.conserved
    rw [if_pos haccepting] at hconserved
    refine ⟨?_, ?_, ?_, ?_, ?_⟩
    · simp only [List.length_append, List.length_cons, List.length_nil, Bool.false_eq_true, if_false]
      omega
    · rw [List.map_append, List.map_singleton, ← List.concat_eq_append, List.nodup_concat]
      refine ⟨?_, h.distinct⟩
      intro hold
      obtain ⟨c, hc, hnumber⟩ := List.mem_map.mp hold
      exact Nat.lt_irrefl _ (hnumber ▸ h.recent c hc)
    · intro c hc
      rcases List.mem_append.mp hc with hold | hnew
      · exact Nat.lt_succ_of_lt (h.recent c hold)
      · rw [List.mem_singleton.mp hnew]
        exact Nat.lt_succ_self _
    · simpa [guards] using h.live
    · simpa [guards] using h.counted
  next => contradiction

theorem abandon (h : s.Balanced max) (hact : s.abandon? = some s') : s'.Balanced max := by
  unfold abandon? at hact
  split at hact
  next haccepting =>
    cases hact
    refine ⟨?_, h.distinct, h.recent, h.live, h.counted⟩
    have hconserved := h.conserved
    rw [if_pos haccepting] at hconserved
    simp only [Bool.false_eq_true, if_false]
    omega
  next => contradiction

/-- A guard is set, and the tracker counts it or counts it no more. -/
theorem withGuard (h : s.Balanced max) {g : Option Nat} {tracker : Tracker}
    (hlive : tracker.live.Perm ((s.setGuard number g).filterMap Connection.guardNumber))
    (hcounted : tracker.active = ((s.setGuard number g).filterMap Connection.guardNumber).length) :
    Balanced { s with tracker := tracker, connections := s.setGuard number g } max := by
  have hnumbers := s.number_setGuard number g
  refine ⟨?_, ?_, ?_, hlive, hcounted⟩
  · have hlength : (s.setGuard number g).length = s.connections.length := List.length_map _
    simp only [hlength]
    exact h.conserved
  · simp only [hnumbers]
    exact h.distinct
  · intro c hc
    have hnumber : c.number ∈ s.connections.map Connection.number := by
      rw [← hnumbers]
      exact List.mem_map_of_mem hc
    obtain ⟨d, hd, hsame⟩ := List.mem_map.mp hnumber
    rw [← hsame]
    exact h.recent d hd

theorem track (h : s.Balanced max) (hact : s.track? number = some s') : s'.Balanced max := by
  obtain ⟨c, hfind, hnone⟩ := track?_eq_some hact
  rw [track?_of_find hfind hnone, Option.some.injEq] at hact
  subst hact
  obtain ⟨before, after, hbefore, hafter⟩ := h.guards_setGuard hfind (some s.tracker.next)
  rw [hnone, Option.toList_none, List.append_nil] at hbefore
  refine h.withGuard ?_ ?_
  · have hlive := h.live
    rw [hbefore] at hlive
    rw [hafter, Option.toList_some, List.append_assoc, List.singleton_append]
    exact ((List.perm_append_singleton _ _).trans (hlive.cons _)).trans List.perm_middle.symm
  · have hcounted := h.counted
    rw [hbefore, List.length_append] at hcounted
    simp only [Tracker.track, hafter, hcounted, List.length_append, Option.toList_some,
      List.length_cons, List.length_nil]
    omega

theorem untrack (h : s.Balanced max) (hact : s.untrack? number = some s') : s'.Balanced max := by
  obtain ⟨c, g, hfind, hsome⟩ := untrack?_eq_some hact
  rw [untrack?_of_find hfind hsome, Option.some.injEq] at hact
  subst hact
  obtain ⟨before, after, hbefore, hafter⟩ := h.guards_setGuard hfind none
  rw [hsome, Option.toList_some, List.append_assoc, List.singleton_append] at hbefore
  rw [Option.toList_none, List.append_nil] at hafter
  have hlive : s.tracker.live.Perm (g :: (before ++ after)) := by
    have hperm := h.live
    rw [hbefore] at hperm
    exact hperm.trans List.perm_middle
  have hthere : g ∈ s.tracker.live := hlive.mem_iff.mpr List.mem_cons_self
  rw [Tracker.untrack_of_mem hthere]
  refine h.withGuard ?_ ?_
  · rw [hafter]
    have herased := hlive.erase g
    rwa [List.erase_cons_head] at herased
  · have hcounted := h.counted
    rw [hbefore, List.length_append, List.length_cons] at hcounted
    simp only [hafter, hcounted, List.length_append]
    omega

theorem release (h : s.Balanced max) (hact : s.release? number = some s') : s'.Balanced max := by
  obtain ⟨c, hfind, hnone⟩ := release?_eq_some hact
  rw [release?_of_find hfind hnone, Option.some.injEq] at hact
  subst hact
  obtain ⟨before, after, hsplit, hnumber, hothers⟩ := h.split hfind
  have hrest : (s.connections.filter fun c => c.number ≠ number) = before ++ after := by
    have hstay (l : List Connection) (hl : ∀ d ∈ l, d.number ≠ number) :
        (l.filter fun c => c.number ≠ number) = l :=
      List.filter_eq_self.mpr fun d hd => decide_eq_true (hl d hd)
    rw [hsplit, List.filter_append, List.filter_cons_of_neg (by simp [hnumber]),
      hstay before fun d hd => hothers d (List.mem_append_left _ hd),
      hstay after fun d hd => hothers d (List.mem_append_right _ hd)]
  have hguards : (before ++ after).filterMap Connection.guardNumber = s.guards := by
    rw [guards, hsplit, List.filterMap_append, List.filterMap_append, List.filterMap_cons, hnone]
  refine ⟨?_, ?_, ?_, ?_, ?_⟩
  · have hconserved := h.conserved
    rw [hsplit, List.length_append, List.length_cons] at hconserved
    simp only [hrest, List.length_append]
    omega
  · exact h.distinct.sublist (List.filter_sublist.map _)
  · intro d hd
    exact h.recent d (List.mem_of_mem_filter hd)
  · simp only [guards, hrest, hguards]
    exact h.live
  · simp only [guards, hrest, hguards]
    exact h.counted

end Balanced
end Gatehouse.Slots
