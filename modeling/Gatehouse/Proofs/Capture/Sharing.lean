import Gatehouse.Capture.Desk
import Gatehouse.Proofs.Capture.Custody

namespace Gatehouse.Capture
open Gatehouse.Stream

/-- There are no more idle buffers than there are places, and they are empty and not too large. -/
structure Pool.Sound (pool : Pool) (maxPooled : Nat) : Prop where
  places : pool.maxPooled = maxPooled
  bounded : pool.idle.length ≤ maxPooled
  clean : ∀ buffer ∈ pool.idle, buffer.bytes = [] ∧ buffer.capacity ≤ maxKeptCapacity

namespace Pool

theorem idle_acquire (pool : Pool) : pool.acquire.2.idle = pool.idle.tail := by
  unfold acquire
  split
  next hidle => rw [hidle]; rfl
  next hidle => rw [hidle]; rfl

theorem idle_releaseAny (pool : Pool) (freed : Option Buffer) :
    (pool.releaseAny freed).idle = match freed with
      | some buffer =>
        if buffer.capacity ≤ maxKeptCapacity ∧ pool.idle.length < pool.maxPooled then
          buffer.clear :: pool.idle
        else pool.idle
      | none => pool.idle := by
  cases freed with
  | none => rfl
  | some buffer =>
    simp only [releaseAny, release]
    split <;> rfl

variable {pool : Pool} {maxPooled : Nat}

theorem Sound.acquire_bytes (h : pool.Sound maxPooled) : pool.acquire.1.bytes = [] := by
  unfold acquire
  split
  next buffer rest hidle => exact (h.clean buffer (by simp [hidle])).1
  next => rfl

theorem Sound.acquire (h : pool.Sound maxPooled) : pool.acquire.2.Sound maxPooled := by
  have hidle := pool.idle_acquire
  refine ⟨?_, ?_, ?_⟩
  · rw [← h.places]
    unfold Pool.acquire
    split <;> rfl
  · rw [hidle, List.length_tail]
    exact Nat.le_trans (Nat.sub_le _ _) h.bounded
  · intro buffer hbuffer
    rw [hidle] at hbuffer
    exact h.clean buffer (List.mem_of_mem_tail hbuffer)

theorem Sound.releaseAny (h : pool.Sound maxPooled) (freed : Option Buffer) :
    (pool.releaseAny freed).Sound maxPooled := by
  have hidle := pool.idle_releaseAny freed
  have hplaces : (pool.releaseAny freed).maxPooled = maxPooled := by
    rw [← h.places]
    cases freed with
    | none => rfl
    | some buffer =>
      simp only [Pool.releaseAny, release]
      split <;> rfl
  cases freed with
  | none => exact h
  | some buffer =>
    simp only at hidle
    split at hidle
    next hkept =>
      refine ⟨hplaces, ?_, ?_⟩
      · rw [hidle, List.length_cons, ← h.places]
        exact hkept.2
      · intro other hother
        rw [hidle, List.mem_cons] at hother
        rcases hother with rfl | hother
        · exact ⟨rfl, hkept.1⟩
        · exact h.clean other hother
    next =>
      refine ⟨hplaces, ?_, ?_⟩
      · rw [hidle]
        exact h.bounded
      · rw [hidle]
        exact h.clean

end Pool

namespace Desk

/-- What happens at the desk: one more connection, or something that is done to one. -/
inductive Move
  | accept
  | on (number : Nat) (action : Action)
deriving Repr, DecidableEq

/-- What was done to which connection, what it gave, and the buffer that was given back. -/
structure Entry where
  number : Nat
  action : Action
  answer : Answer
  freed : Option Buffer
deriving Repr, DecidableEq

/-- The buffer that an action gives back. -/
def freed (desk : Desk) (number : Nat) (action : Action) : Option Buffer :=
  desk.posts[number]?.bind fun post => (post.act action).2.1

/-- Nothing can be done to a connection that is not there. -/
def move (desk : Desk) : Move → List Entry × Desk
  | .accept => ([], desk.accept)
  | .on number action =>
    if number < desk.posts.length then
      ([⟨number, action, (desk.act number action).1, desk.freed number action⟩],
        (desk.act number action).2)
    else ([], desk)

/-- All that was done in a sequence of moves, and the desk after it. -/
def run (desk : Desk) : List Move → List Entry × Desk
  | [] => ([], desk)
  | m :: rest =>
    let (entries, desk) := desk.move m
    let (history, desk) := desk.run rest
    (entries ++ history, desk)

/-- What was done to one connection. -/
def own (number : Nat) (history : List Entry) : List Entry := history.filter (·.number = number)

theorem own_append (number : Nat) (before after : List Entry) :
    own number (before ++ after) = own number before ++ own number after :=
  List.filter_append ..

/-- The history of a connection is that of one that is alone, with an empty buffer. -/
def Alone (room number : Nat) (history : List Entry) (post : Post) : Prop :=
  let own := own number history
  ∃ capacity,
    (Post.new (.empty room) ⟨[], capacity⟩).run (own.map Entry.action) =
      (own.map fun e => (e.action, e.answer), post) ∧
    (Post.new (.empty room) ⟨[], capacity⟩).returned (own.map Entry.action) =
      own.filterMap Entry.freed

/-- What is known of a desk from all that was done at it. -/
structure Tidy (desk : Desk) (maxPooled room : Nat) (history : List Entry) : Prop where
  pool : desk.pool.Sound maxPooled
  fresh : desk.capacity = room
  known : ∀ e ∈ history, e.number < desk.posts.length
  alone : ∀ number post, desk.posts[number]? = some post → Alone room number history post

theorem act_of_some {desk : Desk} {number : Nat} {post : Post} (h : desk.posts[number]? = some post)
    (action : Action) :
    desk.act number action = ((post.act action).1, { desk with
      pool := desk.pool.releaseAny (desk.freed number action)
      posts := desk.posts.set number (post.act action).2.2 }) := by
  simp only [act, freed, h, Option.bind_some]

variable {desk : Desk} {maxPooled room : Nat} {history : List Entry}

theorem Tidy.accept (h : desk.Tidy maxPooled room history) :
    desk.accept.Tidy maxPooled room history := by
  refine ⟨h.pool.acquire, h.fresh, ?_, ?_⟩
  · intro e he
    have hknown := h.known e he
    simp only [Desk.accept, List.length_append, List.length_cons, List.length_nil]
    omega
  · intro number post hpost
    simp only [Desk.accept] at hpost
    by_cases hnew : number < desk.posts.length
    · rw [List.getElem?_append_left hnew] at hpost
      exact h.alone number post hpost
    · rw [List.getElem?_append_right (Nat.le_of_not_lt hnew), List.getElem?_singleton] at hpost
      split at hpost
      · have hnone : own number history = [] := by
          rw [own, List.filter_eq_nil_iff]
          intro e he
          have hknown := h.known e he
          simp only [decide_eq_true_eq]
          omega
        have hempty : desk.pool.acquire.1 = ⟨[], desk.pool.acquire.1.capacity⟩ := by
          rw [← h.pool.acquire_bytes]
        refine ⟨desk.pool.acquire.1.capacity, ?_, ?_⟩
        · rw [hnone, ← hempty, ← h.fresh, ← Option.some.inj hpost]
          rfl
        · rw [hnone]
          rfl
      · contradiction

theorem Tidy.act (h : desk.Tidy maxPooled room history) {number : Nat}
    (hthere : number < desk.posts.length) (action : Action) :
    (desk.act number action).2.Tidy maxPooled room (history ++
      [⟨number, action, (desk.act number action).1, desk.freed number action⟩]) := by
  obtain ⟨post, hpost⟩ : ∃ post, desk.posts[number]? = some post :=
    ⟨_, List.getElem?_eq_getElem hthere⟩
  have hfreed : desk.freed number action = (post.act action).2.1 := by
    rw [freed, hpost, Option.bind_some]
  rw [act_of_some hpost]
  dsimp only
  refine ⟨h.pool.releaseAny _, h.fresh, ?_, ?_⟩
  · intro e he
    rw [List.length_set]
    rcases List.mem_append.mp he with hbefore | hnow
    · exact h.known e hbefore
    · rw [List.mem_singleton.mp hnow]
      exact hthere
  · intro other otherPost hother
    rw [List.getElem?_set] at hother
    by_cases hsame : number = other
    · subst hsame
      rw [if_pos rfl, if_pos hthere, Option.some.injEq] at hother
      obtain ⟨capacity, hrun, hreturned⟩ := h.alone number post hpost
      have hown : own number (history ++ [⟨number, action, (post.act action).1,
          desk.freed number action⟩]) = own number history ++
            [⟨number, action, (post.act action).1, desk.freed number action⟩] := by
        rw [own_append]
        simp [own]
      rw [Alone, hown]
      refine ⟨capacity, ?_, ?_⟩
      · rw [List.map_append, List.map_append, List.map_singleton, List.map_singleton,
          Post.run_concat, hrun, ← hother]
      · rw [List.map_append, List.map_singleton, Post.returned_concat, hrun, hreturned,
          List.filterMap_append, hfreed]
        cases (post.act action).2.1 <;> rfl
    · rw [if_neg hsame] at hother
      have hown : own other (history ++ [⟨number, action, (post.act action).1,
          desk.freed number action⟩]) = own other history := by
        rw [own_append]
        simp [own, hsame]
      rw [Alone, hown]
      exact h.alone other otherPost hother

theorem Tidy.move (h : desk.Tidy maxPooled room history) (m : Move) :
    (desk.move m).2.Tidy maxPooled room (history ++ (desk.move m).1) := by
  cases m with
  | accept =>
    simp only [Desk.move, List.append_nil]
    exact h.accept
  | on number action =>
    simp only [Desk.move]
    split
    next hthere => exact h.act hthere action
    next =>
      rw [List.append_nil]
      exact h

theorem Tidy.run (h : desk.Tidy maxPooled room history) (moves : List Move) :
    (desk.run moves).2.Tidy maxPooled room (history ++ (desk.run moves).1) := by
  induction moves generalizing desk history with
  | nil =>
    rw [Desk.run, List.append_nil]
    exact h
  | cons m rest ih =>
    have hrest := ih (h.move m)
    rw [List.append_assoc] at hrest
    exact hrest

end Desk
end Gatehouse.Capture
