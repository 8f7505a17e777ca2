import Gatehouse.Stream.Deed

namespace Gatehouse.Stream

namespace Pipe

@[simp] theorem buffered_finish (pipe : Pipe) : pipe.finish.buffered = pipe.buffered := by
  unfold finish
  split <;> rfl

theorem state_finish_ne (pipe : Pipe) : pipe.finish.state ≠ .flowing := by
  unfold finish
  split
  · simp
  · assumption

@[simp] theorem buffered_reset (pipe : Pipe) : pipe.reset.buffered = [] := rfl

/-- A read leaves the pipe alone, or takes what it gives off the front. -/
theorem read_cases (pipe : Pipe) (n : Nat) :
    (∃ result, (result = .waiting ∨ result = .failed .connectionReset) ∧
      pipe.read n = (result, pipe)) ∨
    ∃ bs rest, pipe.read n = (.done bs, { pipe with buffered := rest }) ∧
      pipe.buffered = bs ++ rest := by
  unfold read
  by_cases hreset : pipe.state = .reset
  · rw [if_pos hreset]
    exact .inl ⟨_, .inr rfl, rfl⟩
  · rw [if_neg hreset]
    by_cases hempty : pipe.buffered.isEmpty = true
    · rw [if_pos hempty]
      rw [List.isEmpty_iff] at hempty
      by_cases hflow : pipe.state = .flowing
      · exact .inl ⟨_, .inl rfl, by rw [if_pos hflow]⟩
      · refine .inr ⟨[], [], ?_, by simp [hempty]⟩
        rw [if_neg hflow, ← hempty]
    · rw [if_neg hempty]
      exact .inr ⟨_, _, rfl, (List.take_append_drop n pipe.buffered).symm⟩

/-- A write leaves the pipe alone, or puts as much as it says at the end. -/
theorem write_cases (pipe : Pipe) (bs : Bytes) :
    (∃ result, (result = .waiting ∨ result = .failed .brokenPipe ∧ pipe.state ≠ .flowing) ∧
      pipe.write bs = (result, pipe)) ∨
    ∃ k, k ≤ bs.length ∧ pipe.state = .flowing ∧
      pipe.write bs = (.done k, { pipe with buffered := pipe.buffered ++ bs.take k }) := by
  unfold write
  by_cases hflow : pipe.state ≠ .flowing
  · rw [if_pos hflow]
    exact .inl ⟨_, .inr ⟨rfl, hflow⟩, rfl⟩
  · rw [if_neg hflow]
    simp only
    by_cases hroom : pipe.capacity - pipe.buffered.length = 0
    · rw [if_pos hroom]
      exact .inl ⟨_, .inl rfl, rfl⟩
    · rw [if_neg hroom]
      have hshort := List.length_take_le' (pipe.capacity - pipe.buffered.length) bs
      refine .inr ⟨_, hshort, Decidable.not_not.mp hflow, ?_⟩
      simp [List.take_eq_take_iff]

end Pipe

namespace Link

@[simp] theorem flip_inbound (link : Link) : link.flip.inbound = link.outbound := rfl

@[simp] theorem flip_outbound (link : Link) : link.flip.outbound = link.inbound := rfl

end Link

/-- What a writer does to a pipe with the bytes it puts in. -/
inductive Fed (pipe : Pipe) : Bytes → Pipe → Prop
  | put {bs : Bytes} {pipe' : Pipe} (buffered : pipe'.buffered = pipe.buffered ++ bs)
      (state : pipe'.state = .reset ↔ pipe.state = .reset)
      (open_of : bs ≠ [] → pipe.state = .flowing) : Fed pipe bs pipe'
  | reset : Fed pipe [] pipe.reset

/-- What a reader does to a pipe with the bytes it takes out. -/
inductive Drained (pipe : Pipe) : Bytes → Pipe → Prop
  | took {bs : Bytes} {pipe' : Pipe} (buffered : pipe.buffered = bs ++ pipe'.buffered)
      (state : pipe'.state = .flowing → pipe.state = .flowing) : Drained pipe bs pipe'
  | reset : Drained pipe [] pipe.reset

theorem Fed.refl (pipe : Pipe) : Fed pipe [] pipe := .put (by simp) .rfl (by simp)

theorem Drained.refl (pipe : Pipe) : Drained pipe [] pipe := .took rfl id

theorem Fed.finish (pipe : Pipe) : Fed pipe [] pipe.finish := by
  refine .put (by simp) ?_ (by simp)
  unfold Pipe.finish
  split <;> simp_all

theorem Drained.finish (pipe : Pipe) : Drained pipe [] pipe.finish :=
  .took (by simp) fun h => absurd h pipe.state_finish_ne

/-- What was taken and what is left were there before. -/
theorem Drained.prefix_of {pipe pipe' : Pipe} {bs : Bytes} (h : Drained pipe bs pipe') :
    bs ++ pipe'.buffered <+: pipe.buffered := by
  cases h with
  | took buffered _ => exact ⟨[], by rw [buffered, List.append_nil]⟩
  | reset => exact List.nil_prefix

theorem Drained.ended {pipe pipe' : Pipe} {bs : Bytes} (h : Drained pipe bs pipe')
    (hended : pipe.state ≠ .flowing) : pipe'.state ≠ .flowing := by
  cases h with
  | took _ state => exact mt state hended
  | reset => simp [Pipe.reset]

theorem Fed.buffered_eq {pipe pipe' : Pipe} {bs : Bytes} (h : Fed pipe bs pipe')
    (hwell : pipe'.state ≠ .reset) : pipe'.buffered = pipe.buffered ++ bs := by
  cases h with
  | put buffered _ _ => exact buffered
  | reset => contradiction

theorem Drained.buffered_eq {pipe pipe' : Pipe} {bs : Bytes} (h : Drained pipe bs pipe')
    (hwell : pipe'.state ≠ .reset) : pipe.buffered = bs ++ pipe'.buffered := by
  cases h with
  | took buffered _ => exact buffered
  | reset => contradiction

/-- The far end writes into what this end reads. -/
theorem Link.fed_actFar (link : Link) (deed : Deed) :
    Fed link.inbound (deed.sent (link.actFar deed).1) (link.actFar deed).2.inbound := by
  cases deed with
  | write bs =>
    simp only [actFar, act, Link.write, flip_outbound]
    rcases link.inbound.write_cases bs with ⟨result, hresult, hwrite⟩ | ⟨k, -, hflow, hwrite⟩
    · rw [hwrite]
      rcases hresult with rfl | ⟨rfl, -⟩ <;> exact .refl _
    · rw [hwrite]
      exact .put rfl .rfl fun _ => hflow
  | read n => exact .refl _
  | finish => exact .finish _
  | drop => exact .finish _
  | reset => exact .reset

/-- The far end reads what this end writes. -/
theorem Link.drained_actFar (link : Link) (deed : Deed) :
    Drained link.outbound (link.actFar deed).1.received (link.actFar deed).2.outbound := by
  cases deed with
  | write bs => exact .refl _
  | read n =>
    simp only [actFar, act, Link.read, flip_inbound]
    rcases link.outbound.read_cases n with ⟨result, hresult, hread⟩ | ⟨bs, rest, hread, hbuffered⟩
    · rw [hread]
      rcases hresult with rfl | rfl <;> exact .refl _
    · rw [hread]
      exact .took hbuffered id
  | finish => exact .refl _
  | drop => exact .finish _
  | reset => exact .reset

/-- One pipe is a later state of another: what has ended does not flow again, and what is broken stays
broken. -/
structure Later (pipe pipe' : Pipe) : Prop where
  flowing : pipe'.state = .flowing → pipe.state = .flowing
  reset : pipe.state = .reset → pipe'.state = .reset

theorem Later.refl (pipe : Pipe) : Later pipe pipe := ⟨id, id⟩

theorem Later.trans {pipe pipe' pipe'' : Pipe} (h : Later pipe pipe') (h' : Later pipe' pipe'') :
    Later pipe pipe'' := ⟨h.flowing ∘ h'.flowing, h'.reset ∘ h.reset⟩

theorem Later.of_state {pipe pipe' : Pipe} (h : pipe'.state = pipe.state) : Later pipe pipe' :=
  ⟨fun hflow => h ▸ hflow, fun hreset => h.trans hreset⟩

theorem Pipe.later_finish (pipe : Pipe) : Later pipe pipe.finish := by
  refine ⟨fun hflow => absurd hflow pipe.state_finish_ne, fun hreset => ?_⟩
  rw [Pipe.finish, if_neg (by simp [hreset])]
  exact hreset

theorem Pipe.later_reset (pipe : Pipe) : Later pipe pipe.reset :=
  ⟨fun hflow => by contradiction, fun _ => rfl⟩

@[simp] theorem Pipe.finish_finish (pipe : Pipe) : pipe.finish.finish = pipe.finish :=
  if_neg pipe.state_finish_ne

theorem Pipe.finish_of_ended {pipe : Pipe} (h : pipe.state ≠ .flowing) : pipe.finish = pipe :=
  if_neg h

/-- A finished pipe gives what it holds, and after that its end. -/
theorem Pipe.read_finished {pipe : Pipe} (h : pipe.state = .finished) (n : Nat) :
    pipe.read n = (.done (pipe.buffered.take n), { pipe with buffered := pipe.buffered.drop n }) := by
  obtain ⟨capacity, buffered, state⟩ := pipe
  obtain rfl : state = .finished := h
  cases buffered with
  | nil => simp [read]
  | cons b bs => simp [read]

/-- Only a finished pipe with nothing left in it gives an end. -/
theorem Pipe.read_eq_end {pipe pipe' : Pipe} {n : Nat} (hn : n ≠ 0)
    (h : pipe.read n = (.done [], pipe')) :
    pipe.state = .finished ∧ pipe.buffered = [] ∧ pipe' = pipe := by
  obtain ⟨capacity, buffered, state⟩ := pipe
  cases state <;> cases buffered <;> simp [read, hn] at h ⊢
  exact h.symm

theorem Pipe.later_read (pipe : Pipe) (n : Nat) : Later pipe (pipe.read n).2 := by
  rcases pipe.read_cases n with ⟨result, -, hread⟩ | ⟨bs, rest, hread, -⟩
  · rw [hread]
    exact .refl pipe
  · rw [hread]
    exact .of_state rfl

theorem Pipe.later_write (pipe : Pipe) (bs : Bytes) : Later pipe (pipe.write bs).2 := by
  rcases pipe.write_cases bs with ⟨result, -, hwrite⟩ | ⟨k, -, -, hwrite⟩
  · rw [hwrite]
    exact .refl pipe
  · rw [hwrite]
    exact .of_state rfl

theorem Link.later_actFar_inbound (link : Link) (deed : Deed) :
    Later link.inbound (link.actFar deed).2.inbound := by
  cases deed with
  | write bs => exact link.inbound.later_write bs
  | read n => exact .refl _
  | finish => exact link.inbound.later_finish
  | drop => exact link.inbound.later_finish
  | reset => exact link.inbound.later_reset

theorem Link.later_actFar_outbound (link : Link) (deed : Deed) :
    Later link.outbound (link.actFar deed).2.outbound := by
  cases deed with
  | write bs => exact .refl _
  | read n => exact link.outbound.later_read n
  | finish => exact .refl _
  | drop => exact link.outbound.later_finish
  | reset => exact link.outbound.later_reset

namespace Pipe

/-- Nothing is there to be read yet. -/
structure Dry (pipe : Pipe) : Prop where
  flowing : pipe.state = .flowing
  empty : pipe.buffered = []

/-- Nothing more can be written yet. -/
structure Full (pipe : Pipe) : Prop where
  flowing : pipe.state = .flowing
  full : pipe.capacity ≤ pipe.buffered.length

theorem read_waits_iff (pipe : Pipe) (n : Nat) : (pipe.read n).1 = .waiting ↔ pipe.Dry := by
  obtain ⟨capacity, buffered, state⟩ := pipe
  constructor
  · intro h
    cases state <;> cases buffered <;> simp [read] at h
    exact ⟨rfl, rfl⟩
  · rintro ⟨hflow, hempty⟩
    simp only at hflow hempty
    subst hflow hempty
    rfl

theorem write_waits_iff (pipe : Pipe) (bs : Bytes) : (pipe.write bs).1 = .waiting ↔ pipe.Full := by
  obtain ⟨capacity, buffered, state⟩ := pipe
  unfold write
  split
  · rename_i hended
    refine ⟨fun h => by simp at h, fun h => absurd h.flowing hended⟩
  · rename_i hflow
    simp only
    split
    · rename_i hroom
      exact ⟨fun _ => ⟨Decidable.not_not.mp hflow, Nat.sub_eq_zero_iff_le.mp hroom⟩, fun _ => rfl⟩
    · rename_i hroom
      refine ⟨fun h => by simp at h, fun h => absurd (Nat.sub_eq_zero_iff_le.mpr h.full) hroom⟩

theorem length_read_le {pipe pipe' : Pipe} {n : Nat} {bs : Bytes}
    (h : pipe.read n = (.done bs, pipe')) : bs.length ≤ n := by
  unfold read at h
  split at h
  · simp at h
  · split at h
    · split at h
      · simp at h
      · simp only [Prod.mk.injEq, Attempt.done.injEq] at h
        simp [← h.1]
    · simp only [Prod.mk.injEq, Attempt.done.injEq] at h
      rw [← h.1]
      exact List.length_take_le n pipe.buffered

end Pipe
end Gatehouse.Stream
