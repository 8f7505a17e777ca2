import Gatehouse.Gate.Occupancy
import Gatehouse.Proofs.Net.Slots

namespace Gatehouse.Occupancy

/-- The connection that an event is about. -/
def Event.number? : Event → Option Nat
  | .acquired | .abandoned => none
  | .arrived number | .tracked number | .untracked number | .released number => some number

/-- What happened to one connection. -/
def about (number : Nat) (events : List Event) : List Event :=
  events.filter fun e => e.number? = some number

theorem about_append (number : Nat) (before after : List Event) :
    about number (before ++ after) = about number before ++ about number after :=
  List.filter_append ..

theorem about_concat_self {number : Nat} {e : Event} (h : e.number? = some number)
    (past : List Event) : about number (past ++ [e]) = about number past ++ [e] := by
  rw [about_append]
  simp [about, h]

theorem about_concat_of_ne {number : Nat} {e : Event} (h : e.number? ≠ some number)
    (past : List Event) : about number (past ++ [e]) = about number past := by
  rw [about_append]
  simp [about, h]

theorem about_concat_of_none {e : Event} (h : e.number? = none) (number : Nat)
    (past : List Event) : about number (past ++ [e]) = about number past :=
  about_concat_of_ne (by simp [h]) past

/-- All that can happen to a connection, in the only order in which it can. -/
def course (number : Nat) : List Event :=
  [.arrived number, .tracked number, .untracked number, .released number]

/-- What the holder of a connection still has to drop, how the slots know the connection, and what
happened to it. -/
inductive Life (number : Nat) : List Part → Option Connection → List Event → Prop
  | whole (g : Nat) :
    Life number [.guard, .slot] (some ⟨number, some g⟩) ((course number).take 2)
  | unguarded : Life number [.slot] (some ⟨number, none⟩) ((course number).take 3)
  | gone : Life number [] none (course number)

/-- Hands and slots agree on every connection, and the past accounts for every slot. -/
structure Accounted (o : Occupancy) (max : Nat) (past : List Event) : Prop where
  balanced : o.slots.Balanced max
  accepting : o.slots.accepting = true ↔ o.hands.loop = .accepting
  next : o.slots.next = o.hands.holders.length + if o.hands.loop = .greeting then 1 else 0
  held : ∀ number holder, o.hands.holders[number]? = some holder →
    Life number holder.parts (o.slots.find? number) (about number past)
  greeted : o.hands.loop = .greeting →
    o.slots.find? o.hands.holders.length = some ⟨o.hands.holders.length, none⟩ ∧
      about o.hands.holders.length past = [.arrived o.hands.holders.length]
  unborn : ∀ number, o.slots.next ≤ number → about number past = []
  taken : past.count .acquired = past.count .abandoned + o.slots.next +
    if o.hands.loop = .accepting then 1 else 0

theorem Holder.parts_step? {holder holder' : Holder} {step : Step}
    (h : holder.step? step = some holder') : holder'.parts = holder.parts := by
  unfold Holder.step? at h
  split at h <;> cases h <;> rfl

namespace Accounted
variable {o : Occupancy} {max : Nat} {past : List Event}

/-- Connections change hands, and nothing else happens. -/
theorem rearrange (h : o.Accounted max past) {hands : Hands}
    (hlength : hands.holders.length = o.hands.holders.length)
    (haccepting : hands.loop = .accepting ↔ o.hands.loop = .accepting)
    (hgreeting : hands.loop = .greeting ↔ o.hands.loop = .greeting)
    (hparts : ∀ (number : Nat) (holder' : Holder), hands.holders[number]? = some holder' →
      ∃ holder : Holder, o.hands.holders[number]? = some holder ∧ holder'.parts = holder.parts) :
    Accounted ⟨hands, o.slots⟩ max past := by
  refine ⟨h.balanced, ?_, ?_, ?_, ?_, h.unborn, ?_⟩
  · exact h.accepting.trans haccepting.symm
  · simp only [hlength, hgreeting]
    exact h.next
  · intro number holder' hholder'
    obtain ⟨holder, hholder, hsame⟩ := hparts number holder' hholder'
    rw [hsame]
    exact h.held number holder hholder
  · intro hloop
    simp only [hlength]
    exact h.greeted (hgreeting.mp hloop)
  · simp only [haccepting]
    exact h.taken

theorem set_of_parts (h : o.Accounted max past) {number : Nat} {holder holder' : Holder}
    (hholder : o.hands.holders[number]? = some holder) (hsame : holder'.parts = holder.parts) :
    Accounted ⟨{ o.hands with holders := o.hands.holders.set number holder' }, o.slots⟩ max past := by
  refine h.rearrange (List.length_set ..) Iff.rfl Iff.rfl ?_
  intro m other hother
  simp only [List.getElem?_set] at hother
  split at hother
  next hm =>
    subst hm
    split at hother
    · rw [← Option.some.inj hother]
      exact ⟨holder, hholder, hsame⟩
    · contradiction
  next => exact ⟨other, hother, rfl⟩

theorem hangUp (h : o.Accounted max past) :
    Accounted ⟨{ o.hands with
      hungUp := true
      holders := o.hands.holders.map fun holder =>
        if holder = .accepted .queued then holder.leave else holder }, o.slots⟩ max past := by
  refine h.rearrange (List.length_map ..) Iff.rfl Iff.rfl ?_
  intro number other hother
  rw [List.getElem?_map, Option.map_eq_some_iff] at hother
  obtain ⟨holder, hholder, rfl⟩ := hother
  refine ⟨holder, hholder, ?_⟩
  split <;> rfl

theorem acquire (h : o.Accounted max past) (hloop : o.hands.loop = .idle)
    (hfree : o.slots.available ≠ 0) :
    ∃ slots, o.slots.acquire? = some slots ∧
      Accounted ⟨{ o.hands with loop := .accepting }, slots⟩ max (past ++ [.acquired]) := by
  have hidle : o.slots.accepting = false := by
    rw [← Bool.not_eq_true, h.accepting, hloop]
    nofun
  have hact : o.slots.acquire? =
      some { o.slots with available := o.slots.available - 1, accepting := true } := by
    simp [Slots.acquire?, hidle, hfree]
  have hnext := h.next
  have htaken := h.taken
  simp only [hloop, reduceCtorEq, if_false] at hnext htaken
  refine ⟨_, hact, h.balanced.acquire hact, by simp, ?_, ?_, by simp, ?_, ?_⟩
  · simpa using hnext
  · simp only [about_concat_of_none (e := .acquired) rfl]
    exact h.held
  · simp only [about_concat_of_none (e := .acquired) rfl]
    exact h.unborn
  · simp only [List.count_append, if_true]
    simp
    omega

theorem abandon (h : o.Accounted max past) (hloop : o.hands.loop = .accepting) (loop : Loop)
    (hidle : loop = .idle ∨ loop = .ended) :
    ∃ slots, o.slots.abandon? = some slots ∧ slots.available = o.slots.available + 1 ∧
      Accounted ⟨{ o.hands with loop := loop }, slots⟩ max (past ++ [.abandoned]) := by
  have haccepting := h.accepting.mpr hloop
  have hact : o.slots.abandon? =
      some { o.slots with accepting := false, available := o.slots.available + 1 } := by
    simp [Slots.abandon?, haccepting]
  have hnot : loop ≠ .accepting ∧ loop ≠ .greeting := by
    rcases hidle with rfl | rfl <;> exact ⟨nofun, nofun⟩
  have hnext := h.next
  have htaken := h.taken
  simp only [hloop, reduceCtorEq, if_false, if_true] at hnext htaken
  refine ⟨_, hact, rfl, h.balanced.abandon hact, by simp [hnot.1], ?_, ?_,
    fun hgreeting => absurd hgreeting hnot.2, ?_, ?_⟩
  · simpa [hnot.2] using hnext
  · simp only [about_concat_of_none (e := .abandoned) rfl]
    exact h.held
  · simp only [about_concat_of_none (e := .abandoned) rfl]
    exact h.unborn
  · simp only [List.count_append, if_neg hnot.1]
    simp
    omega

theorem arrive (h : o.Accounted max past) (hloop : o.hands.loop = .accepting) :
    ∃ slots, o.slots.arrive? = some slots ∧
      Accounted ⟨{ o.hands with loop := .greeting }, slots⟩ max
        (past ++ [.arrived o.hands.holders.length]) := by
  have haccepting := h.accepting.mpr hloop
  have hact : o.slots.arrive? = some { o.slots with
      accepting := false
      connections := o.slots.connections ++ [⟨o.slots.next, none⟩]
      next := o.slots.next + 1 } := by
    simp [Slots.arrive?, haccepting]
  have hnext := h.next
  have htaken := h.taken
  simp only [hloop, reduceCtorEq, if_false, if_true, Nat.add_zero] at hnext htaken
  refine ⟨_, hact, h.balanced.arrive hact, by simp, ?_, ?_, ?_, ?_, ?_⟩
  · simp [hnext]
  · intro number holder hholder
    have hlt : number < o.hands.holders.length := (List.getElem?_eq_some_iff.mp hholder).1
    have hother : number ≠ o.slots.next := by omega
    have hfind := h.balanced.find?_append_next number
    rw [if_neg hother] at hfind
    rw [about_concat_of_ne (by simp [Event.number?]; omega)]
    simp only [Slots.find?, hfind]
    exact h.held number holder hholder
  · intro _
    have hfind := h.balanced.find?_append_next o.slots.next
    rw [if_pos rfl] at hfind
    have hnone := h.unborn o.slots.next (Nat.le_refl _)
    rw [about_concat_self rfl, ← hnext, hnone]
    exact ⟨hfind, rfl⟩
  · intro number hnumber
    simp only at hnumber
    rw [about_concat_of_ne (by simp [Event.number?]; omega)]
    exact h.unborn number (by omega)
  · simp only [List.count_append]
    simp
    omega

theorem track (h : o.Accounted max past) (hloop : o.hands.loop = .greeting) :
    ∃ slots, o.slots.track? o.hands.holders.length = some slots ∧
      Accounted ⟨{ o.hands with loop := .idle, holders := o.hands.holders ++ [.task .spawned] }, slots⟩
        max (past ++ [.tracked o.hands.holders.length]) := by
  obtain ⟨hfind, habout⟩ := h.greeted hloop
  have hact := Slots.track?_of_find hfind rfl
  have hnext := h.next
  have htaken := h.taken
  have haccepting := h.accepting
  simp only [hloop, reduceCtorEq, if_false, if_true, Nat.add_zero] at hnext htaken haccepting
  refine ⟨_, hact, h.balanced.track hact, by simpa using haccepting, ?_, ?_, nofun, ?_, ?_⟩
  · simpa using hnext
  · intro number holder hholder
    have hset := Slots.find?_setGuard hfind (some o.slots.tracker.next) number
    simp only [Slots.find?, hset]
    by_cases hnew : number = o.hands.holders.length
    · subst hnew
      rw [List.getElem?_concat_length, Option.some.injEq] at hholder
      rw [if_pos rfl, about_concat_self rfl, habout, ← hholder]
      exact .whole _
    · have hlt := (List.getElem?_eq_some_iff.mp hholder).1
      rw [List.length_append, List.length_singleton] at hlt
      rw [List.getElem?_append_left (by omega)] at hholder
      rw [if_neg hnew, about_concat_of_ne (by simp [Event.number?, Ne.symm hnew])]
      exact h.held number holder hholder
  · intro number hnumber
    simp only at hnumber
    rw [about_concat_of_ne (by simp [Event.number?]; omega)]
    exact h.unborn number hnumber
  · simp only [List.count_append]
    simp
    omega

/-- A part was dropped: the connection is found without it, and nothing happened to the others. -/
theorem of_dropped (h : o.Accounted max past) {number : Nat} {part : Part} {rest : List Part}
    {slots : Slots} {found : Option Connection}
    (hholder : o.hands.holders[number]? = some (.leaving (part :: rest)))
    (haccepting : slots.accepting = o.slots.accepting) (hnext : slots.next = o.slots.next)
    (hnumber : (dropped number part).number? = some number) (hbalanced : slots.Balanced max)
    (hfind : ∀ m, slots.find? m = if m = number then found else o.slots.find? m)
    (hlife : Life number rest found (about number past ++ [dropped number part]))
    (hcount : [dropped number part].count .acquired = 0 ∧
      [dropped number part].count .abandoned = 0) :
    Accounted ⟨{ o.hands with holders := o.hands.holders.set number (.leaving rest) }, slots⟩ max
      (past ++ [dropped number part]) := by
  have hlt := (List.getElem?_eq_some_iff.mp hholder).1
  have hlength : (o.hands.holders.set number (.leaving rest)).length = o.hands.holders.length :=
    List.length_set ..
  refine ⟨hbalanced, ?_, ?_, ?_, ?_, ?_, ?_⟩
  · rw [haccepting]
    exact h.accepting
  · simp only [hlength, hnext]
    exact h.next
  · intro m holder hm
    simp only [List.getElem?_set] at hm
    rw [hfind]
    by_cases hsame : number = m
    · subst hsame
      rw [if_pos rfl, if_pos hlt, Option.some.injEq] at hm
      rw [if_pos rfl, about_concat_self hnumber, ← hm]
      exact hlife
    · rw [if_neg hsame] at hm
      rw [if_neg (Ne.symm hsame), about_concat_of_ne (by rw [hnumber]; simpa using hsame)]
      exact h.held m holder hm
  · intro hgreeting
    obtain ⟨hfound, habout⟩ := h.greeted hgreeting
    have hother : o.hands.holders.length ≠ number := by omega
    simp only [hlength]
    rw [hfind, if_neg hother, about_concat_of_ne (by rw [hnumber]; simpa using Ne.symm hother)]
    exact ⟨hfound, habout⟩
  · intro m hm
    rw [hnext] at hm
    have hknown := h.next
    rw [about_concat_of_ne (by rw [hnumber]; simp; omega)]
    exact h.unborn m hm
  · simp only [List.count_append, hcount, hnext, Nat.add_zero]
    exact h.taken

/-- What a holder is to drop next is there to be dropped. -/
theorem drop (h : o.Accounted max past) {number : Nat} {part : Part} {rest : List Part}
    (hholder : o.hands.holders[number]? = some (.leaving (part :: rest))) :
    ∃ slots, o.slots.act? (dropped number part).toMove = some slots ∧
      Accounted ⟨{ o.hands with holders := o.hands.holders.set number (.leaving rest) }, slots⟩ max
        (past ++ [dropped number part]) := by
  have hlife := h.held number _ hholder
  simp only [Holder.parts] at hlife
  -- The life of a connection tells what is dropped next, and that it is there.
  generalize hfound : o.slots.find? number = found at hlife
  generalize habout : about number past = story at hlife
  have hknown : number < o.slots.next := by
    have hnext := h.next
    have hlt := (List.getElem?_eq_some_iff.mp hholder).1
    omega
  cases hlife with
  | whole g =>
    have hact := Slots.untrack?_of_find hfound rfl
    have hset := Slots.find?_setGuard hfound none
    refine ⟨_, hact, h.of_dropped hholder rfl rfl rfl (h.balanced.untrack hact) hset ?_ ?_⟩
    · rw [habout]
      exact .unguarded
    · simp [dropped]
  | unguarded =>
    have hact := Slots.release?_of_find hfound rfl
    have hset := o.slots.find?_filter_ne number
    refine ⟨_, hact, h.of_dropped hholder rfl rfl rfl (h.balanced.release hact) hset ?_ ?_⟩
    · rw [habout]
      exact .gone
    · simp [dropped]

/-- Whatever can happen finds the slots as it needs them; only an accept may have to wait for one. -/
theorem act_hands (h : o.Accounted max past) {move : Move} {events : List Event} {hands : Hands}
    (hact : o.hands.act? move = some (events, hands))
    (hfree : move = .acquire → o.slots.available ≠ 0) :
    ∃ slots, events.foldlM (fun slots event => slots.act? event.toMove) o.slots = some slots ∧
      Accounted ⟨hands, slots⟩ max (past ++ events) := by
  have hone (e : Event) : [e].foldlM (fun slots event => slots.act? event.toMove) o.slots =
      o.slots.act? e.toMove := bind_pure _
  cases move with
  | acquire =>
    obtain ⟨hloop, heq⟩ := (Option.ite_none_right_eq_some ..).mp hact
    cases heq
    rw [hone]
    exact h.acquire hloop (hfree rfl)
  | abandon =>
    obtain ⟨hloop, heq⟩ := (Option.ite_none_right_eq_some ..).mp hact
    cases heq
    obtain ⟨slots, habandon, -, hnext⟩ := h.abandon hloop .idle (.inl rfl)
    rw [hone]
    exact ⟨slots, habandon, hnext⟩
  | arrive =>
    obtain ⟨hloop, heq⟩ := (Option.ite_none_right_eq_some ..).mp hact
    cases heq
    rw [hone]
    exact h.arrive hloop
  | track =>
    obtain ⟨hloop, heq⟩ := (Option.ite_none_right_eq_some ..).mp hact
    cases heq
    rw [hone]
    exact h.track hloop
  | stop =>
    simp only [Hands.act?] at hact
    split at hact
    next hloop =>
      cases hact
      refine ⟨o.slots, rfl, ?_⟩
      rw [List.append_nil]
      refine h.rearrange rfl ?_ ?_ fun number holder hholder => ⟨holder, hholder, rfl⟩
      · simp [hloop]
      · simp [hloop]
    next hloop =>
      cases hact
      obtain ⟨slots, habandon, -, hnext⟩ := h.abandon hloop .ended (.inr rfl)
      rw [hone]
      exact ⟨slots, habandon, hnext⟩
    next => contradiction
  | advance number step =>
    simp only [Hands.act?, Option.bind_eq_bind, Option.bind_eq_some_iff] at hact
    obtain ⟨holder, hholder, holder', hstep, hallowed⟩ := hact
    obtain ⟨-, heq⟩ := (Option.ite_none_right_eq_some ..).mp hallowed
    cases heq
    refine ⟨o.slots, rfl, ?_⟩
    rw [List.append_nil]
    exact h.set_of_parts hholder (Holder.parts_step? hstep)
  | hangUp =>
    obtain ⟨-, heq⟩ := (Option.ite_none_left_eq_some ..).mp hact
    cases heq
    refine ⟨o.slots, rfl, ?_⟩
    rw [List.append_nil]
    exact h.hangUp
  | drop number =>
    simp only [Hands.act?] at hact
    split at hact
    next part rest hholder =>
      cases hact
      rw [hone]
      exact h.drop hholder
    next => contradiction

theorem act (h : o.Accounted max past) {move : Move} {events : List Event} {next : Occupancy}
    (hact : o.act? move = some (events, next)) : next.Accounted max (past ++ events) := by
  simp only [Occupancy.act?, Option.bind_eq_bind, Option.bind_eq_some_iff, Option.pure_def,
    Option.some.injEq, Prod.mk.injEq, Prod.exists] at hact
  obtain ⟨events', hands, hhands, slots, hslots, rfl, rfl⟩ := hact
  have hfree : move = .acquire → o.slots.available ≠ 0 := by
    rintro rfl hnone
    obtain ⟨-, heq⟩ := (Option.ite_none_right_eq_some ..).mp hhands
    cases heq
    simp [Event.toMove, Slots.act?, Slots.acquire?, hnone] at hslots
  obtain ⟨slots', hslots', hnext⟩ := h.act_hands hhands hfree
  rw [hslots, Option.some.injEq] at hslots'
  rw [hslots']
  exact hnext

theorem run (h : o.Accounted max past) {moves : List Move} {events : List Event} {last : Occupancy}
    (hrun : o.run? moves = some (events, last)) : last.Accounted max (past ++ events) := by
  induction moves generalizing o past events with
  | nil =>
    cases hrun
    rw [List.append_nil]
    exact h
  | cons move rest ih =>
    simp only [run?, Option.bind_eq_bind, Option.bind_eq_some_iff, Option.pure_def,
      Option.some.injEq, Prod.mk.injEq, Prod.exists] at hrun
    obtain ⟨now, next, hact, later, final, hrest, rfl, rfl⟩ := hrun
    rw [← List.append_assoc]
    exact ih (h.act hact) hrest

/-- How a connection that has come in stands, if it has a guard already or not yet. -/
theorem life_or_greeted (h : o.Accounted max past) {number : Nat} (hknown : number < o.slots.next) :
    (∃ parts, Life number parts (o.slots.find? number) (about number past)) ∨
      o.slots.find? number = some ⟨number, none⟩ ∧ about number past = (course number).take 1 := by
  have hnext := h.next
  by_cases hheld : number < o.hands.holders.length
  · exact .inl ⟨_, h.held number _ (List.getElem?_eq_getElem hheld)⟩
  · by_cases hloop : o.hands.loop = .greeting
    · rw [if_pos hloop] at hnext
      obtain rfl : number = o.hands.holders.length := by omega
      exact .inr (h.greeted hloop)
    · rw [if_neg hloop] at hnext
      omega

end Accounted

namespace Accounted
variable {o : Occupancy} {max : Nat} {past : List Event}

theorem once (h : o.Accounted max past) {number : Nat} (hknown : number < o.slots.next) :
    past.count (.released number) = if (o.slots.find? number).isSome then 0 else 1 := by
  have hcount : past.count (.released number) = (about number past).count (.released number) := by
    rw [about, List.count_filter]
    simp [Event.number?]
  rw [hcount]
  rcases h.life_or_greeted hknown with ⟨parts, hlife⟩ | ⟨hfind, habout⟩
  · generalize o.slots.find? number = found at hlife
    generalize about number past = story at hlife
    cases hlife with
    | whole g => simp [course]
    | unguarded => simp [course]
    | gone => simp [course]
  · rw [hfind, habout]
    simp [course]

end Accounted

end Gatehouse.Occupancy
