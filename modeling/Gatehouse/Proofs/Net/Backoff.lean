import Gatehouse.Net.Backoff
import Mathlib.Algebra.Group.Nat.Defs

namespace Gatehouse.Backoff

variable {base cap : Nat}

theorem doubled_eq (hbase : 0 < base) (hcap : cap ≤ largest) (n : Nat) :
    doubled base cap n = min (base * 2 ^ n) cap := by
  unfold doubled powerOfTwo
  split
  next => rw [Nat.pow_eq, Nat.min_assoc, Nat.min_eq_right hcap]
  next hlarge =>
    -- Saturated or not, the power is beyond the cap.
    have hsaturated : largest ≤ base * largest := Nat.le_mul_of_pos_left largest hbase
    have hpower : largest ≤ 2 ^ n :=
      Nat.le_trans (Nat.sub_le _ 1) (Nat.pow_le_pow_right (by decide) (Nat.le_of_not_lt hlarge))
    have hexact : cap ≤ base * 2 ^ n :=
      Nat.le_trans (Nat.le_trans hcap hpower) (Nat.le_mul_of_pos_left _ hbase)
    rw [Nat.min_eq_right hsaturated, Nat.min_eq_right hcap, Nat.min_eq_right hexact]

/-- A pause can be calculated if the cap leaves room for what chance adds to it. -/
theorem delayFor_succ (hbase : 0 < base) (hroom : cap + cap / 10 ≤ largest) (n chance : Nat) :
    delayFor base cap (n + 1) chance =
      .ok (min (base * 2 ^ n) cap + chance % max 1 (min (base * 2 ^ n) cap / 10)) := by
  have hcap : cap ≤ largest := Nat.le_trans (Nat.le_add_right cap _) hroom
  have hbefore : subtract (n + 1) 1 = .ok n := if_pos (Nat.le_add_left 1 n)
  simp only [delayFor, Nat.add_one_ne_zero, if_false, hbefore, bind, Except.bind,
    doubled_eq hbase hcap]
  have hcapped : min (base * 2 ^ n) cap ≤ cap := Nat.min_le_right _ _
  generalize min (base * 2 ^ n) cap = certain at hcapped
  have hsum : ∀ extra ≤ certain / 10, add certain extra = .ok (certain + extra) := by
    intro extra hextra
    have := Nat.div_le_div_right (c := 10) hcapped
    exact if_pos (by omega)
  unfold spread
  split
  next hspread =>
    have hdrawn := Nat.mod_lt chance hspread
    rw [draw, if_pos hspread, Nat.max_eq_right hspread]
    exact hsum _ (Nat.le_of_lt hdrawn)
  next hnone =>
    have hzero : certain / 10 = 0 := Nat.eq_zero_of_not_pos hnone
    rw [hzero, Nat.max_eq_left (Nat.zero_le 1), Nat.mod_one]
    exact hsum 0 (Nat.zero_le _)

/-- What is certain of the pause behind the `n`-th failure in a row. -/
def floor (n : Nat) : Nat := min (5 * 2 ^ (n - 1)) 1000

/-- Where the pause behind the `n`-th failure in a row may lie. -/
def InEnvelope (n pause : Nat) : Prop := floor n ≤ pause ∧ pause < floor n + max 1 (floor n / 10)

theorem floor_le (n : Nat) : floor n ≤ 1000 := Nat.min_le_right _ _

/-- From the ninth failure on the cap is reached, so that it does not matter where counting stops. -/
theorem floor_of_le {n : Nat} (h : 9 ≤ n) : floor n = 1000 := by
  have hpower : 2 ^ 8 ≤ 2 ^ (n - 1) := Nat.pow_le_pow_right (by decide) (by omega)
  exact Nat.min_eq_right (by omega)

theorem floor_min (n : Nat) : floor (min n mostFailures) = floor n := by
  have hmany : 9 ≤ mostFailures := by decide
  by_cases h : n ≤ mostFailures
  · rw [Nat.min_eq_left h]
  · rw [Nat.min_eq_right (by omega), floor_of_le hmany, floor_of_le (by omega)]

/-- Below the cap the next pause is at least as long as this one and all that chance adds to it. -/
theorem floor_add_le_succ {n : Nat} (hn : 0 < n) (h : floor n < 1000) :
    floor n + max 1 (floor n / 10) ≤ floor (n + 1) := by
  -- The longest delay below the cap is 640: one close to 1000 would leave chance too much room.
  have hfew : n - 1 ≤ 7 := Nat.le_of_not_lt fun hmany =>
    Nat.ne_of_lt h (floor_of_le (by omega))
  have hpos : 0 < 2 ^ (n - 1) := Nat.two_pow_pos _
  have hsmall : 2 ^ (n - 1) ≤ 2 ^ 7 := Nat.pow_le_pow_right (by decide) hfew
  have hnext : 2 ^ n = 2 * 2 ^ (n - 1) := by
    rw [← Nat.pow_succ', Nat.succ_eq_add_one, Nat.sub_add_cancel hn]
  simp only [floor, Nat.add_sub_cancel, hnext]
  omega

/-- The pause behind the `n`-th failure in a row. -/
def pause (n chance : Nat) : Nat := floor n + chance % max 1 (floor n / 10)

theorem delayFor_of_pos {n : Nat} (hn : 0 < n) (chance : Nat) :
    delayFor baseDelay longestDelay n chance = .ok (pause n chance) := by
  obtain ⟨m, rfl⟩ := Nat.exists_eq_add_one.mpr hn
  exact delayFor_succ (by decide) (by decide) m chance

theorem inEnvelope_pause (n chance : Nat) : InEnvelope n (pause n chance) := by
  have hdrawn : chance % max 1 (floor n / 10) < max 1 (floor n / 10) :=
    Nat.mod_lt chance (by omega)
  exact ⟨Nat.le_add_right _ _, Nat.add_lt_add_left hdrawn _⟩

theorem inEnvelope_iff {n p : Nat} (hn : 0 < n) :
    InEnvelope n p ↔ ∃ chance, delayFor baseDelay longestDelay n chance = .ok p := by
  simp only [delayFor_of_pos hn, Except.ok.injEq]
  constructor
  · intro h
    obtain ⟨hleast, hmost⟩ := h
    refine ⟨p - floor n, ?_⟩
    rw [pause, Nat.mod_eq_of_lt (by omega)]
    omega
  · intro h
    obtain ⟨chance, rfl⟩ := h
    exact inEnvelope_pause n chance

theorem InEnvelope.lt {n p : Nat} (h : InEnvelope n p) : p < 1100 := by
  have hfloor := floor_le n
  have hpause := h.2
  omega

def Event.isFailure : Event → Bool
  | .fail _ => true
  | .succeed => false

/-- How many events at the end are failures. -/
def inARow (events : List Event) : Nat := (events.reverse.takeWhile Event.isFailure).length

theorem inARow_concat (events : List Event) (event : Event) :
    inARow (events ++ [event]) = if event.isFailure then inARow events + 1 else 0 := by
  rw [inARow, List.reverse_append, List.reverse_singleton, List.singleton_append,
    List.takeWhile_cons]
  split <;> rfl

/-- The count behind some events. -/
def counted (events : List Event) : Backoff := ⟨min (inARow events) mostFailures⟩

/-- What an event behind some others gives. -/
def answer (before : List Event) : Event → Option Nat
  | .fail chance => some (pause (inARow before + 1) chance)
  | .succeed => none

theorem fail_counted (before : List Event) (chance : Nat) :
    (counted before).fail = counted (before ++ [.fail chance]) := by
  simp only [fail, counted, inARow_concat, Event.isFailure, if_true, mk.injEq]
  omega

theorem act_counted (before : List Event) (event : Event) :
    (counted before).act event = .ok (answer before event, counted (before ++ [event])) := by
  cases event with
  | succeed =>
    have hrow : inARow (before ++ [.succeed]) = 0 := inARow_concat before .succeed
    rw [act, answer, succeed, start, counted, hrow, Nat.zero_min]
  | fail chance =>
    have hrow : inARow (before ++ [.fail chance]) = inARow before + 1 := by
      rw [inARow_concat, Event.isFailure, if_pos rfl]
    have hmany : 0 < mostFailures := by decide
    have hpos : 0 < (counted (before ++ [.fail chance])).failures := by
      simp only [counted, hrow]
      omega
    have hpause : pause (counted (before ++ [.fail chance])).failures chance =
        pause (inARow before + 1) chance := by
      rw [counted, pause, floor_min, hrow, pause]
    rw [act, fail_counted before chance, delayFor_of_pos hpos, hpause, answer]
    rfl

theorem run_cons_of_act {b b' : Backoff} {event : Event} {p : Option Nat}
    (h : b.act event = .ok (p, b')) (rest : List Event) :
    b.run (event :: rest) = (b'.run rest).map fun (pauses, last) => (p :: pauses, last) := by
  rw [run, h]
  simp only [bind, Except.bind]
  cases b'.run rest <;> rfl

/-- The answers to events, each of which has those in front of it to build on. -/
def answers (before : List Event) : List Event → List (Option Nat)
  | [] => []
  | event :: rest => answer before event :: answers (before ++ [event]) rest

theorem run_counted (before events : List Event) :
    (counted before).run events = .ok (answers before events, counted (before ++ events)) := by
  induction events generalizing before with
  | nil => rw [run, List.append_nil, answers]
  | cons event rest ih =>
    rw [run_cons_of_act (act_counted before event), ih, List.append_assoc, List.singleton_append,
      answers]
    rfl

theorem length_answers (before events : List Event) :
    (answers before events).length = events.length := by
  induction events generalizing before with
  | nil => rfl
  | cons event rest ih => rw [answers, List.length_cons, ih, List.length_cons]

theorem getElem?_answers (earlier before after : List Event) (event : Event) :
    (answers earlier (before ++ event :: after))[before.length]? =
      some (answer (earlier ++ before) event) := by
  induction before generalizing earlier with
  | nil => simp [answers]
  | cons first rest ih => simpa [answers] using ih (earlier ++ [first])

/-- Whatever happens to attempts to accept and whatever chance offers, every call gives its answer. The
count is that of the failures in a row until it stops; the pause behind each failure lies in the envelope
of its place in the row, which chance exhausts, and short of the cap no pause is shorter than the one
before. -/
theorem pauses_stay_in_envelope (events : List Event) :
    ∃ pauses b, start.run events = .ok (pauses, b) ∧ pauses.length = events.length ∧
      b.failures = min (inARow events) (2 ^ 32 - 1) ∧
      (∀ before chance after, events = before ++ .fail chance :: after →
        ∃ p, pauses[before.length]? = some (some p) ∧ InEnvelope (inARow before + 1) p ∧ p < 1100) ∧
      (∀ before first second after, events = before ++ .fail first :: .fail second :: after →
        floor (inARow before + 1) < 1000 →
          ∃ p next, pauses[before.length]? = some (some p) ∧
            pauses[before.length + 1]? = some (some next) ∧ p ≤ next) ∧
      ∀ n p, 0 < n → (InEnvelope n p ↔
        ∃ chance, delayFor baseDelay longestDelay n chance = .ok p) := by
  refine ⟨answers [] events, counted events, run_counted [] events, length_answers [] events, rfl,
    ?_, ?_, fun n p => inEnvelope_iff⟩
  · intro before chance after hevents
    subst hevents
    have henvelope := inEnvelope_pause (inARow before + 1) chance
    exact ⟨_, getElem?_answers [] before after (.fail chance), henvelope, henvelope.lt⟩
  · intro before first second after hevents hbelow
    subst hevents
    have hnext := getElem?_answers [] (before ++ [.fail first]) after (.fail second)
    have hrow : inARow (before ++ [.fail first]) = inARow before + 1 := by
      rw [inARow_concat, Event.isFailure, if_pos rfl]
    rw [List.append_assoc, List.singleton_append, List.length_append, List.length_singleton,
      List.nil_append, answer, hrow] at hnext
    refine ⟨_, _, getElem?_answers [] before (.fail second :: after) (.fail first), hnext, ?_⟩
    have hfirst := (inEnvelope_pause (inARow before + 1) first).2
    have hgrows := floor_add_le_succ (Nat.succ_pos (inARow before)) hbelow
    have hsecond := (inEnvelope_pause (inARow before + 1 + 1) second).1
    exact Nat.le_trans (Nat.le_of_lt hfirst) (Nat.le_trans hgrows hsecond)

end Gatehouse.Backoff
