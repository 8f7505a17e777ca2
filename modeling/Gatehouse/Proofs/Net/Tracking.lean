import Gatehouse.Net.Tracker
import Gatehouse.Proofs.Timed
import Mathlib.Data.List.Nodup
import Mathlib.Order.Bounds.Defs

namespace Gatehouse.SharedTracker
open Timed Tracker

namespace Move

instance : Timed Move where
  time
    | .elapse time => time
    | _ => 0

def tracks : Move → Bool
  | .track _ => true
  | _ => false

def drops : Move → Bool
  | .drop _ => true
  | _ => false

def waits : Move → Bool
  | .wait _ => true
  | _ => false

/-- The count changes. -/
def counts (m : Move) : Bool := m.tracks || m.drops

theorem counts_eq_false_iff {m : Move} :
    m.counts = false ↔ m.tracks = false ∧ m.drops = false := Bool.or_eq_false_iff

end Move

def play? (s : SharedTracker) (moves : List Move) : Option SharedTracker := moves.foldlM act? s

/-- The ids of the guards that a script makes, in order. -/
def ids (s : SharedTracker) : List Move → List UInt64
  | [] => []
  | m :: rest =>
    (if m.tracks then [connectionId s.tracker.track.1] else []) ++
      (s.act? m).elim [] (·.ids rest)

def tracked (moves : List Move) : Nat := moves.countP Move.tracks

def dropped (moves : List Move) : Nat := moves.countP Move.drops

def waiting (moves : List Move) : Nat := moves.countP Move.waits

/-- How many connections are under way at an instant, told from the script. -/
def underway (moves : List Move) (instant : Nat) : Nat :=
  (instants Move.tracks 0 moves).countP (· ≤ instant) -
    (instants Move.drops 0 moves).countP (· ≤ instant)

/-- What a move does to the tracker itself. -/
inductive Does (t : Tracker) : Move → Tracker → Prop
  | clone (handle : Nat) : Does t (.clone handle) t
  | leave (handle : Nat) : Does t (.leave handle) t
  | track (handle : Nat) : Does t (.track handle) t.track.2
  | drop {number : Nat} (h : number ∈ t.live) : Does t (.drop number) (t.untrack number)
  | wait (handle : Nat) : Does t (.wait handle) t.wait
  | elapse (time : Nat) : Does t (.elapse time) (t.elapse time)

theorem does_of_act? {s s' : SharedTracker} {m : Move} (h : s.act? m = some s') :
    Does s.tracker m s'.tracker := by
  cases m with
  | clone handle =>
    obtain ⟨-, ⟨⟩⟩ := Option.ite_none_right_eq_some.mp h
    exact .clone handle
  | leave handle =>
    obtain ⟨-, ⟨⟩⟩ := Option.ite_none_right_eq_some.mp h
    exact .leave handle
  | track handle =>
    obtain ⟨-, ⟨⟩⟩ := Option.ite_none_right_eq_some.mp h
    exact .track handle
  | drop number =>
    obtain ⟨hlive, ⟨⟩⟩ := Option.ite_none_right_eq_some.mp h
    exact .drop (List.contains_iff_mem.mp hlive)
  | wait handle =>
    obtain ⟨-, ⟨⟩⟩ := Option.ite_none_right_eq_some.mp h
    exact .wait handle
  | elapse time =>
    obtain rfl := Option.some.inj h
    exact .elapse time

section Told
variable {moves : List Move} {m : Move} {instant : Nat}

theorem countP_concat {kind : Move → Bool} :
    (moves ++ [m]).countP kind = moves.countP kind + if kind m then 1 else 0 := by
  rw [List.countP_append, List.countP_singleton]

theorem underway_concat_of_none (h : m.counts = false) :
    underway (moves ++ [m]) instant = underway moves instant := by
  obtain ⟨htracks, hdrops⟩ := Move.counts_eq_false_iff.mp h
  rw [underway, instants_append_of_none htracks, instants_append_of_none hdrops]
  rfl

/-- What happens later does not change the count of an instant. -/
theorem underway_concat_of_lt (h : instant < clock moves) :
    underway (moves ++ [m]) instant = underway moves instant := by
  have hlater (kind : Move → Bool) : (instants kind 0 (moves ++ [m])).countP (· ≤ instant) =
      (instants kind 0 moves).countP (· ≤ instant) := by
    rw [instants_append, List.countP_append, instants_singleton]
    split
    · simp [h]
    · rfl
  rw [underway, hlater, hlater]
  rfl

theorem underway_of_le (h : clock moves ≤ instant) :
    underway moves instant = tracked moves - dropped moves := by
  have hall (kind : Move → Bool) :
      (instants kind 0 moves).countP (· ≤ instant) = moves.countP kind := by
    have hlength : (instants kind 0 moves).length = moves.countP kind := length_instants
    rw [← hlength, List.countP_eq_length]
    intro t ht
    have hle := le_of_mem_instants ht
    exact decide_eq_true (by omega)
  rw [underway, hall, hall]
  rfl

end Told

/-- A tracker counts what the script says. -/
structure Counted (moves : List Move) (t : Tracker) : Prop where
  now : t.now = clock moves
  next : t.next = tracked moves
  known : ∀ n, .drop n ∈ moves → n < tracked moves
  live_iff : ∀ n, n ∈ t.live ↔ n < tracked moves ∧ .drop n ∉ moves
  nodup : t.live.Nodup
  active : t.active = t.live.length
  balanced : t.active + dropped moves = tracked moves
  gauge : t.gauge = if tracked moves = 0 then none else some t.active
  waiters : t.waiters.length = waiting moves

theorem counted_start : Counted [] Tracker.start where
  now := rfl
  next := rfl
  known n := nofun
  live_iff n := by simp [Tracker.start, tracked]
  nodup := .nil
  active := rfl
  balanced := rfl
  gauge := rfl
  waiters := rfl

section Counted
variable {moves more : List Move} {t t' : Tracker} {m : Move}

theorem Counted.underway_eq (h : Counted moves t) {instant : Nat} (hinstant : clock moves ≤ instant) :
    underway moves instant = t.active := by
  rw [underway_of_le hinstant, ← h.balanced, Nat.add_sub_cancel]

/-- Moves that leave the count alone. -/
theorem Counted.quiet (h : Counted moves t) (hm : m.counts = false) (hnow : t'.now = t.now + time m)
    (hcount : (t'.next, t'.live, t'.active, t'.gauge) = (t.next, t.live, t.active, t.gauge))
    (hwaiters : t'.waiters.length = t.waiters.length + if m.waits then 1 else 0) :
    Counted (moves ++ [m]) t' := by
  obtain ⟨htracks, hdrops⟩ := Move.counts_eq_false_iff.mp hm
  simp only [Prod.mk.injEq] at hcount
  obtain ⟨hnext, hlive, hactive, hgauge⟩ := hcount
  have htracked : tracked (moves ++ [m]) = tracked moves := by rw [tracked, countP_concat, htracks]; rfl
  have hdropped : dropped (moves ++ [m]) = dropped moves := by rw [dropped, countP_concat, hdrops]; rfl
  have hnew (n : Nat) : .drop n ∉ [m] := fun hmem => by
    rw [← List.mem_singleton.mp hmem] at hdrops
    contradiction
  refine ⟨?_, ?_, fun n hn => ?_, fun n => ?_, ?_, ?_, ?_, ?_, ?_⟩
  · rw [hnow, h.now, clock_append, clock_singleton]
  · rw [hnext, h.next, htracked]
  · rw [htracked]
    exact h.known n ((List.mem_append.mp hn).resolve_right (hnew n))
  · rw [hlive, h.live_iff, htracked, List.mem_append, not_or, and_iff_left (hnew n)]
  · rw [hlive]
    exact h.nodup
  · rw [hactive, hlive, h.active]
  · rw [hactive, hdropped, htracked, h.balanced]
  · rw [hgauge, htracked, hactive, h.gauge]
  · rw [hwaiters, h.waiters]
    exact countP_concat.symm

/-- A number is new when it is given out, so that no guard of it was dropped. -/
theorem Counted.track (h : Counted moves t) (handle : Nat) :
    Counted (moves ++ [.track handle]) t.track.2 := by
  have htracked : tracked (moves ++ [.track handle]) = tracked moves + 1 := countP_concat
  have hdropped : dropped (moves ++ [.track handle]) = dropped moves := countP_concat
  have hfresh : .drop t.next ∉ moves := fun hmem =>
    Nat.lt_irrefl _ (h.next ▸ h.known t.next hmem)
  have hunused : t.next ∉ t.live := fun hmem =>
    Nat.lt_irrefl _ (h.next ▸ ((h.live_iff t.next).mp hmem).1)
  have hdrop (n : Nat) : .drop n ∈ moves ++ [.track handle] ↔ .drop n ∈ moves := by simp
  refine ⟨?_, ?_, fun n hn => ?_, fun n => ?_, ?_, ?_, ?_, ?_, ?_⟩
  · rw [clock_append, clock_singleton]
    exact h.now
  · rw [htracked, ← h.next]
    rfl
  · rw [htracked]
    exact Nat.lt_succ_of_lt (h.known n ((hdrop n).mp hn))
  · change n ∈ t.live ++ [t.next] ↔ _
    rw [List.mem_append, List.mem_singleton, h.live_iff, htracked, hdrop, ← h.next]
    constructor
    · rintro (⟨hlt, hn⟩ | rfl)
      · exact ⟨Nat.lt_succ_of_lt hlt, hn⟩
      · exact ⟨Nat.lt_succ_self _, hfresh⟩
    · rintro ⟨hlt, hn⟩
      rcases Nat.lt_succ_iff_lt_or_eq.mp hlt with hold | hnew
      · exact .inl ⟨hold, hn⟩
      · exact .inr hnew
  · change (t.live ++ [t.next]).Nodup
    rw [← List.concat_eq_append, List.nodup_concat]
    exact ⟨hunused, h.nodup⟩
  · change t.active + 1 = (t.live ++ [t.next]).length
    rw [List.length_append, h.active]
    rfl
  · change t.active + 1 + dropped (moves ++ [.track handle]) = _
    rw [hdropped, htracked, ← h.balanced]
    omega
  · rw [htracked]
    rfl
  · rw [waiting, countP_concat]
    exact h.waiters

/-- A guard that lives was counted, so that the count does not go below zero. -/
theorem Counted.active_untrack (h : Counted moves t) {number : Nat} (hlive : number ∈ t.live) :
    (t.untrack number).active + 1 = t.active := by
  have hpos : 0 < t.active := h.active ▸ List.length_pos_of_mem hlive
  rw [untrack_of_mem hlive]
  exact Nat.sub_add_cancel hpos

theorem Counted.drop (h : Counted moves t) {number : Nat} (hlive : number ∈ t.live) :
    Counted (moves ++ [.drop number]) (t.untrack number) := by
  have htracked : tracked (moves ++ [.drop number]) = tracked moves := countP_concat
  have hdropped : dropped (moves ++ [.drop number]) = dropped moves + 1 := countP_concat
  have hknown : number < tracked moves := ((h.live_iff number).mp hlive).1
  have hactive := h.active_untrack hlive
  rw [untrack_of_mem hlive] at hactive ⊢
  have hdrop (n : Nat) : .drop n ∈ moves ++ [.drop number] ↔ .drop n ∈ moves ∨ n = number := by
    simp
  refine ⟨?_, ?_, fun n hn => ?_, fun n => ?_, ?_, ?_, ?_, ?_, ?_⟩
  · rw [clock_append, clock_singleton]
    exact h.now
  · rw [htracked]
    exact h.next
  · rw [htracked]
    rcases (hdrop n).mp hn with hold | rfl
    · exact h.known n hold
    · exact hknown
  · change n ∈ t.live.erase number ↔ _
    rw [h.nodup.mem_erase_iff, h.live_iff, htracked, hdrop, not_or]
    tauto
  · exact h.nodup.erase number
  · change t.active - 1 = (t.live.erase number).length
    rw [List.length_erase_of_mem hlive, h.active]
  · change t.active - 1 + dropped (moves ++ [.drop number]) = _
    have hbalanced := h.balanced
    rw [hdropped, htracked]
    omega
  · rw [htracked, if_neg (Nat.ne_of_gt (Nat.zero_lt_of_lt hknown))]
  · rw [waiting, countP_concat]
    exact h.waiters

theorem Counted.act (h : Counted moves t) (hdoes : Does t m t') : Counted (moves ++ [m]) t' := by
  cases hdoes with
  | clone handle => exact h.quiet rfl rfl rfl rfl
  | leave handle => exact h.quiet rfl rfl rfl rfl
  | track handle => exact h.track handle
  | drop hlive => exact h.drop hlive
  | wait handle => exact h.quiet rfl rfl rfl (List.length_append ..)
  | elapse time => exact h.quiet rfl rfl rfl (List.length_map _)

theorem play?_append (s : SharedTracker) (moves more : List Move) :
    s.play? (moves ++ more) = (s.play? moves).bind (·.play? more) := List.foldlM_append ..

theorem Counted.play {s s' : SharedTracker} (h : Counted moves s.tracker)
    (hplay : s.play? more = some s') : Counted (moves ++ more) s'.tracker := by
  induction more generalizing s moves with
  | nil =>
    obtain rfl := Option.some.inj hplay
    rwa [List.append_nil]
  | cons m rest ih =>
    obtain ⟨next, hact, hrest⟩ := Option.bind_eq_some_iff.mp hplay
    simpa using ih (h.act (does_of_act? hact)) hrest

theorem counted_of_play {s : SharedTracker} (hplay : start.play? moves = some s) :
    Counted moves s.tracker := by
  simpa using counted_start.play hplay

end Counted

theorem next_act {t t' : Tracker} {m : Move} (h : Does t m t') :
    t'.next = t.next + if m.tracks then 1 else 0 := by
  cases h with
  | drop hlive =>
    rw [untrack_of_mem hlive]
    rfl
  | clone | leave | track | wait | elapse => rfl

/-- Numbers are given out one after the other. -/
theorem ids_eq {s s' : SharedTracker} {moves : List Move} (hplay : s.play? moves = some s') :
    s.ids moves = (List.range' s.tracker.next (tracked moves)).map connectionId := by
  induction moves generalizing s with
  | nil => rfl
  | cons m rest ih =>
    obtain ⟨next, hact, hrest⟩ := Option.bind_eq_some_iff.mp hplay
    have htracked : tracked (m :: rest) = tracked rest + if m.tracks then 1 else 0 :=
      List.countP_cons
    rw [ids, hact, Option.elim_some, ih hrest, next_act (does_of_act? hact), htracked]
    split
    · rfl
    · rfl

theorem connectionId_lt {a b : Nat} (hlt : a < b) (hb : b + 1 < UInt64.size) :
    connectionId a < connectionId b := by
  rw [UInt64.lt_iff_toNat_lt, connectionId, connectionId, UInt64.toNat_ofNat_of_lt' hb,
    UInt64.toNat_ofNat_of_lt' (by omega)]
  exact Nat.succ_lt_succ hlt

theorem ids_increase {s : SharedTracker} {moves : List Move} (hplay : start.play? moves = some s)
    (hwords : tracked moves < UInt64.size) :
    (start.ids moves).length = tracked moves ∧ (start.ids moves).Pairwise (· < ·) := by
  have hids : start.ids moves = (List.range (tracked moves)).map connectionId := by
    rw [List.range_eq_range']
    exact ids_eq hplay
  rw [hids, List.length_map, List.length_range, List.pairwise_map]
  refine ⟨rfl, List.Pairwise.imp_of_mem (fun _ hb hlt => connectionId_lt hlt ?_)
    List.pairwise_lt_range⟩
  exact Nat.lt_of_le_of_lt (List.mem_range.mp hb) hwords

/-- At the first few looks behind the beginning of a wait there was something under way. -/
def Busy (begun : Nat) (moves : List Move) (looks : Nat) : Prop :=
  ∀ j < looks, begun + pollInterval * j ≤ clock moves ∧
    0 < underway moves (begun + pollInterval * j)

/-- How a wait stands that began at an instant. -/
inductive Awaits (begun : Nat) (moves : List Move) : Waiter → Prop
  | waiting (looks : Nat) (hnext : clock moves < begun + pollInterval * looks)
      (hbusy : Busy begun moves looks) : Awaits begun moves (.waiting (begun + pollInterval * looks))
  | returned (looks : Nat) (hnow : begun + pollInterval * looks ≤ clock moves)
      (hidle : underway moves (begun + pollInterval * looks) = 0)
      (hbusy : Busy begun moves looks) : Awaits begun moves (.returned (begun + pollInterval * looks))

section Awaits
variable {begun looks count : Nat} {moves more : List Move} {m : Move} {t t' : Tracker} {w : Waiter}

/-- All looks that are made while the count stays the same. -/
theorem awaits_lookFrom (hbusy : Busy begun moves looks)
    (hcount : ∀ instant, begun + pollInterval * looks ≤ instant → instant ≤ clock moves →
      underway moves instant = count) :
    Awaits begun moves (lookFrom (clock moves) (count == 0) (begun + pollInterval * looks)) := by
  generalize hnext : begun + pollInterval * looks = next
  fun_induction lookFrom (clock moves) (count == 0) next generalizing looks with
  | case1 next hnow hidle =>
    subst hnext
    refine .returned looks hnow ?_ hbusy
    rw [hcount _ (Nat.le_refl _) hnow]
    exact beq_iff_eq.mp hidle
  | case2 next hnow hidle ih =>
    subst hnext
    have hactive : count ≠ 0 := fun hzero => hidle (beq_iff_eq.mpr hzero)
    have hsucc : begun + pollInterval * (looks + 1) = begun + pollInterval * looks + pollInterval :=
      rfl
    refine ih (fun j hj => ?_) (fun instant hinstant => ?_) hsucc
    · rcases Nat.lt_succ_iff_lt_or_eq.mp hj with hold | rfl
      · exact hbusy j hold
      · rw [hcount _ (Nat.le_refl _) hnow]
        exact ⟨hnow, Nat.pos_of_ne_zero hactive⟩
    · exact hcount instant (by omega)
  | case3 next hlater =>
    subst hnext
    exact .waiting looks (Nat.lt_of_not_le hlater) hbusy

/-- A look that was made stays what it was, unless the count changes right then. -/
theorem underway_look (hoff : m.counts = true → ∀ k, clock moves ≠ begun + pollInterval * k) (j : Nat)
    (hj : begun + pollInterval * j ≤ clock moves) :
    underway (moves ++ [m]) (begun + pollInterval * j) =
      underway moves (begun + pollInterval * j) := by
  cases hcounts : m.counts with
  | false => exact underway_concat_of_none hcounts
  | true => exact underway_concat_of_lt (Nat.lt_of_le_of_ne hj (hoff hcounts j).symm)

theorem Busy.concat (h : Busy begun moves looks)
    (hoff : m.counts = true → ∀ k, clock moves ≠ begun + pollInterval * k) :
    Busy begun (moves ++ [m]) looks := by
  intro j hj
  obtain ⟨hnow, hactive⟩ := h j hj
  rw [underway_look hoff j hnow, clock_append]
  exact ⟨Nat.le_trans hnow (Nat.le_add_right _ _), hactive⟩

theorem Awaits.concat (h : Awaits begun moves w) (htime : time m = 0)
    (hoff : m.counts = true → ∀ k, clock moves ≠ begun + pollInterval * k) :
    Awaits begun (moves ++ [m]) w := by
  have hclock : clock (moves ++ [m]) = clock moves := by
    rw [clock_append, clock_singleton, htime]
    rfl
  cases h with
  | waiting looks hnext hbusy => exact .waiting looks (hclock ▸ hnext) (hbusy.concat hoff)
  | returned looks hnow hidle hbusy =>
    refine .returned looks (hclock ▸ hnow) ?_ (hbusy.concat hoff)
    rw [underway_look hoff looks hnow, hidle]

theorem Awaits.elapse (h : Awaits begun moves w) (hcounted : Counted moves t) (time : Nat) :
    Awaits begun (moves ++ [.elapse time]) (w.lookUntil (t.now + time) (t.active == 0)) := by
  have hclock : clock (moves ++ [.elapse time]) = t.now + time := by
    rw [clock_append, clock_singleton, hcounted.now]
    rfl
  cases h with
  | waiting looks hnext hbusy =>
    rw [Waiter.lookUntil, ← hclock]
    refine awaits_lookFrom (hbusy.concat nofun) fun instant hinstant _ => ?_
    rw [underway_concat_of_none rfl, hcounted.underway_eq (by omega)]
  | returned looks hnow hidle hbusy =>
    refine .returned looks ?_ ?_ (hbusy.concat nofun)
    · rw [hclock, hcounted.now]
      exact Nat.le_trans hnow (Nat.le_add_right _ _)
    · rw [underway_concat_of_none rfl, hidle]

/-- The first look is at once. -/
theorem Counted.wait (h : Counted moves t) (handle : Nat) :
    ∃ w, t.wait.waiters[waiting moves]? = some w ∧
      Awaits (clock moves) (moves ++ [.wait handle]) w := by
  have hclock : clock (moves ++ [.wait handle]) = clock moves := by
    rw [clock_append, clock_singleton]
    rfl
  have hlook : t.wait.waiters[waiting moves]? =
      some (lookFrom (clock moves) (t.active == 0) (clock moves)) := by
    rw [← h.waiters, ← h.now]
    exact List.getElem?_concat_length
  have hbusy : Busy (clock moves) (moves ++ [.wait handle]) 0 := nofun
  have hawaits := awaits_lookFrom hbusy fun instant hinstant _ =>
    (underway_concat_of_none rfl).trans (h.underway_eq hinstant)
  rw [hclock] at hawaits
  exact ⟨_, hlook, hawaits⟩

theorem Awaits.act (h : Awaits begun moves w) (hcounted : Counted moves t) (hdoes : Does t m t')
    (hoff : m.counts = true → ∀ k, clock moves ≠ begun + pollInterval * k)
    {i : Nat} (hw : t.waiters[i]? = some w) :
    ∃ w', t'.waiters[i]? = some w' ∧ Awaits begun (moves ++ [m]) w' := by
  cases hdoes with
  | clone | leave => exact ⟨w, hw, h.concat rfl hoff⟩
  | track => exact ⟨w, hw, h.concat rfl hoff⟩
  | drop hlive =>
    rw [untrack_of_mem hlive]
    exact ⟨w, hw, h.concat rfl hoff⟩
  | wait =>
    refine ⟨w, ?_, h.concat rfl hoff⟩
    obtain ⟨hi, -⟩ := List.getElem?_eq_some_iff.mp hw
    exact (List.getElem?_append_left hi).trans hw
  | elapse time =>
    refine ⟨_, ?_, h.elapse hcounted time⟩
    change (t.waiters.map _)[i]? = _
    rw [List.getElem?_map, hw]
    rfl

theorem Awaits.play {s s' : SharedTracker} (h : Awaits begun moves w)
    (hcounted : Counted moves s.tracker) (hplay : s.play? more = some s')
    (hoff : ∀ t ∈ instants Move.counts (clock moves) more, ∀ k, t ≠ begun + pollInterval * k)
    {i : Nat} (hw : s.tracker.waiters[i]? = some w) :
    ∃ w', s'.tracker.waiters[i]? = some w' ∧ Awaits begun (moves ++ more) w' := by
  induction more generalizing s moves w with
  | nil =>
    obtain rfl := Option.some.inj hplay
    exact ⟨w, hw, (List.append_nil moves).symm ▸ h⟩
  | cons m rest ih =>
    obtain ⟨next, hact, hrest⟩ := Option.bind_eq_some_iff.mp hplay
    have hdoes := does_of_act? hact
    have hnow : clock (moves ++ [m]) = clock moves + time m := by
      rw [clock_append, clock_singleton]
    obtain ⟨w', hw', hawaits⟩ := h.act hcounted hdoes
      (fun hcounts => hoff _ (List.mem_append_left _ (by simp [hcounts]))) hw
    rw [List.append_cons]
    refine ih hawaits (hcounted.act hdoes) hrest (fun t ht => ?_) hw'
    rw [hnow] at ht
    exact hoff t (List.mem_append_right _ ht)

/-- A wait is over at the first look that finds nothing under way. -/
theorem Awaits.outcome (h : Awaits begun moves w) :
    (∃ T, w = .returned T ∧ T ≤ clock moves ∧
      IsLeast {t | (∃ k, t = begun + pollInterval * k) ∧ underway moves t = 0} T) ∨
    (∃ next, w = .waiting next) ∧
      ∀ k, begun + pollInterval * k ≤ clock moves → 0 < underway moves (begun + pollInterval * k) := by
  cases h with
  | waiting looks hnext hbusy =>
    refine .inr ⟨⟨_, rfl⟩, fun k hk => (hbusy k ?_).2⟩
    exact Nat.lt_of_mul_lt_mul_left (Nat.lt_of_add_lt_add_left (Nat.lt_of_le_of_lt hk hnext))
  | returned looks hnow hidle hbusy =>
    refine .inl ⟨_, rfl, hnow, ⟨⟨looks, rfl⟩, hidle⟩, ?_⟩
    rintro _ ⟨⟨k, rfl⟩, hk⟩
    have hle : looks ≤ k := Nat.le_of_not_lt fun hlt => Nat.ne_of_gt (hbusy k hlt).2 hk
    exact Nat.add_le_add_left (Nat.mul_le_mul_left _ hle) _

/-- A wait that began in the middle of a script, and what it had come to at the end. -/
theorem awaits_of_play {before after : List Move} {handle : Nat} {s : SharedTracker}
    (hplay : start.play? (before ++ .wait handle :: after) = some s)
    (hoff : ∀ t ∈ instants Move.counts (clock before) after,
      ∀ k, t ≠ clock before + pollInterval * k) :
    ∃ w, s.tracker.waiters[waiting before]? = some w ∧
      Awaits (clock before) (before ++ .wait handle :: after) w := by
  rw [play?_append] at hplay
  obtain ⟨first, hbefore, hrest⟩ := Option.bind_eq_some_iff.mp hplay
  obtain ⟨second, hact, hafter⟩ := Option.bind_eq_some_iff.mp hrest
  have hfirst := counted_of_play hbefore
  have hsecond := hfirst.act (does_of_act? hact)
  have hclock : clock (before ++ [.wait handle]) = clock before := by
    rw [clock_append, clock_singleton]
    rfl
  obtain ⟨-, ⟨⟩⟩ := Option.ite_none_right_eq_some.mp hact
  obtain ⟨w, hw, hawaits⟩ := hfirst.wait handle
  rw [List.append_cons]
  exact hawaits.play hsecond hafter (hclock.symm ▸ hoff) hw

end Awaits

/-- A tracker counts the guards that live, whatever those do who have handles to it, and the gauge shows
the count from the first guard on. The guards that live can be dropped, and no others; each was counted.
Ids go upwards as long as there are words for them. A wait is over at the first look that finds nothing
under way, if the count does not change just then; what is between two looks is missed. -/
theorem guards_are_counted_and_drained (moves : List Move) (s : SharedTracker)
    (hplay : start.play? moves = some s) :
    s.tracker.active = s.tracker.live.length ∧ s.tracker.live.Nodup ∧
    (∀ n, n ∈ s.tracker.live ↔ n < tracked moves ∧ .drop n ∉ moves) ∧
    (∀ n, n ∈ s.tracker.live ↔
      ∃ s', s.act? (.drop n) = some s' ∧ s'.tracker.active + 1 = s.tracker.active) ∧
    (∀ instant, clock moves ≤ instant → underway moves instant = s.tracker.active) ∧
    s.tracker.gauge = (if tracked moves = 0 then none else some s.tracker.active) ∧
    (tracked moves < UInt64.size → s.tracker.active < UInt64.size ∧
      (start.ids moves).length = tracked moves ∧ (start.ids moves).Pairwise (· < ·)) ∧
    ∀ before handle after, moves = before ++ .wait handle :: after →
      (∀ t ∈ instants Move.counts (clock before) after,
        ∀ k, t ≠ clock before + pollInterval * k) →
      (∃ T, s.tracker.waiters[waiting before]? = some (.returned T) ∧ T ≤ clock moves ∧
        IsLeast {t | (∃ k, t = clock before + pollInterval * k) ∧ underway moves t = 0} T) ∨
      (∃ next, s.tracker.waiters[waiting before]? = some (.waiting next)) ∧
        ∀ k, clock before + pollInterval * k ≤ clock moves →
          0 < underway moves (clock before + pollInterval * k) := by
  have hcounted := counted_of_play hplay
  refine ⟨hcounted.active, hcounted.nodup, hcounted.live_iff, ?_, fun _ => hcounted.underway_eq,
    hcounted.gauge, ?_, ?_⟩
  · intro n
    constructor
    · intro hlive
      exact ⟨_, if_pos (List.contains_iff_mem.mpr hlive), hcounted.active_untrack hlive⟩
    · rintro ⟨s', hact, -⟩
      exact List.contains_iff_mem.mp (Option.ite_none_right_eq_some.mp hact).1
  · intro hwords
    have hbalanced := hcounted.balanced
    exact ⟨by omega, ids_increase hplay hwords⟩
  · rintro before handle after rfl hoff
    obtain ⟨w, hw, hawaits⟩ := awaits_of_play hplay hoff
    rw [hw]
    rcases hawaits.outcome with ⟨T, rfl, hreturned⟩ | ⟨⟨next, rfl⟩, hwaiting⟩
    · exact .inl ⟨T, rfl, hreturned⟩
    · exact .inr ⟨⟨next, rfl⟩, hwaiting⟩

/-- For a while nothing is under way, but none of the first three looks falls into it. -/
def relapse : List Move :=
  [.elapse 50, .drop 0, .elapse 30, .track 1, .leave 1, .elapse 170, .drop 1, .elapse 100]

theorem relapse_is_waited_out :
    ∃ s, start.play? ([.clone 0, .track 0] ++ .wait 1 :: relapse) = some s ∧
      s.tracker.active = 0 ∧ s.tracker.waiters[0]? = some (.returned 300) := by
  refine ⟨_, rfl, rfl, ?_⟩
  obtain ⟨-, -, -, -, -, -, -, hwaits⟩ :=
    guards_are_counted_and_drained ([.clone 0, .track 0] ++ .wait 1 :: relapse) _ rfl
  have hoff : ∀ t ∈ instants Move.counts 0 relapse, ∀ k, t ≠ 0 + pollInterval * k := by
    have hinstants : instants Move.counts 0 relapse = [50, 80, 250] := rfl
    rw [hinstants, pollInterval]
    simp only [List.forall_mem_cons]
    refine ⟨fun k => ?_, fun k => ?_, fun k => ?_, nofun⟩ <;> omega
  rcases hwaits [.clone 0, .track 0] 1 relapse rfl hoff with
    ⟨T, hreturned, -, ⟨⟨k, rfl⟩, hidle⟩, hleast⟩ | ⟨-, hbusy⟩
  · have hthird : 0 + pollInterval * k ≤ 300 := hleast ⟨⟨3, rfl⟩, by decide⟩
    have hfew : k = 0 ∨ k = 1 ∨ k = 2 ∨ k = 3 := by
      rw [pollInterval] at hthird
      omega
    rcases hfew with rfl | rfl | rfl | rfl
    · exact absurd hidle (by decide)
    · exact absurd hidle (by decide)
    · exact absurd hidle (by decide)
    · exact hreturned
  · exact absurd (hbusy 3 (by decide)) (by decide)

end Gatehouse.SharedTracker
