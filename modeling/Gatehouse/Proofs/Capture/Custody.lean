import Gatehouse.Proofs.Capture.Interception

namespace Gatehouse.Capture
open Gatehouse.Stream

/-- The buffers on loan to a connection: with its interception, or with what was detached. -/
def Post.loans (post : Post) : List Buffer :=
  post.intercept.capture.toList ++ post.hello.join.toList

/-- The buffers that a connection gives back in a run, in order. -/
def Post.returned (post : Post) : List Action → List Buffer
  | [] => []
  | action :: rest => (post.act action).2.1.toList ++ (post.act action).2.2.returned rest

/-- What has arrived for the library and was not read. -/
def Post.unread (post : Post) : Bytes :=
  (post.intercept.socket.map fun near => near.inbound.buffered).getD []

/-- What was detached was detached together with the socket. -/
def Post.Parted (post : Post) : Prop := post.hello ≠ none → post.intercept.socket = none

theorem Post.mem_loans_iff {post : Post} {buffer : Buffer} :
    buffer ∈ post.loans ↔
      post.intercept.capture = some buffer ∨ post.hello = some (some buffer) := by
  rw [loans, List.mem_append, Option.mem_toList, Option.mem_toList, Option.join_eq_some_iff]

theorem Post.run_concat (post : Post) (past : List Action) (action : Action) :
    post.run (past ++ [action]) =
      ((post.run past).1 ++ [(action, ((post.run past).2.act action).1)],
        ((post.run past).2.act action).2.2) := by
  induction past generalizing post with
  | nil => rfl
  | cons first rest ih =>
    simp only [List.cons_append, run]
    rw [ih]

theorem Post.returned_concat (post : Post) (past : List Action) (action : Action) :
    post.returned (past ++ [action]) =
      post.returned past ++ ((post.run past).2.act action).2.1.toList := by
  induction past generalizing post with
  | nil => simp [returned, run]
  | cons first rest ih =>
    simp only [List.cons_append, returned, ih, List.append_assoc]
    rfl

theorem Post.hello_settle (post : Post) : post.settle.2.hello = post.hello := by
  unfold settle
  split <;> rfl

/-- What was detached stays until it is replayed or dropped. -/
theorem Post.hello_act (post : Post) {action : Action} (hdetach : action ≠ .detach)
    (hreplay : action ≠ .replay) (hdrop : action ≠ .dropHello) :
    (post.act action).2.2.hello = post.hello := by
  have hpeer {α : Type} (act : Link → α × Link) : (post.atPeer act).2.hello = post.hello := by
    unfold atPeer
    cases post.intercept.socket with
    | some near => rfl
    | none =>
      cases post.socket with
      | some near => rfl
      | none => cases post.abandoned <;> rfl
  have hsocket {α : Type} (act : Link → α × Link) : (post.onSocket act).2.hello = post.hello := by
    unfold onSocket
    cases post.socket <;> rfl
  cases action with
  | peerWrite bs => exact hpeer fun far => far.write bs
  | peerRead => exact hpeer Link.readAll
  | peerClose => exact hpeer fun far => ((), far.drop)
  | detach => exact absurd rfl hdetach
  | replay => exact absurd rfl hreplay
  | dropHello => exact absurd rfl hdrop
  | socketRead n => exact hsocket fun near => near.read n
  | socketWrite bs => exact hsocket fun near => near.write bs
  | socketDrop =>
    simp only [act, dropSocket]
    cases post.socket <;> rfl
  | dropLibraryHalf => exact hello_settle _
  | dropTaskHalf => exact hello_settle _
  | read | write | flush | shutdown | inspect | passThrough => rfl

theorem Post.parted_new (socket : Link) (buffer : Buffer) : (Post.new socket buffer).Parted := by
  intro hhello
  exact absurd rfl hhello

theorem Post.Parted.act {post : Post} (h : post.Parted) (action : Action) :
    (post.act action).2.2.Parted := by
  intro hhello
  have hgone (hbefore : post.intercept.socket = none) :
      (post.act action).2.2.intercept.socket = none := by
    cases hafter : (post.act action).2.2.intercept.socket with
    | none => rfl
    | some near =>
      have hkept : (post.act action).2.2.intercept.socket.isSome = true := by rw [hafter]; rfl
      have hthere := socket_of_act hkept
      rw [hbefore] at hthere
      contradiction
  by_cases hdetach : action = .detach
  · subst hdetach
    cases hsocket : post.intercept.socket with
    | none => exact hgone hsocket
    | some near => rw [detach_of_some hsocket]
  · by_cases hreplay : action = .replay
    · subst hreplay
      refine hgone (h ?_)
      intro hnone
      simp only [Post.act, hnone, ne_eq, not_true_eq_false] at hhello
    · by_cases hdrop : action = .dropHello
      · subst hdrop
        exact absurd rfl hhello
      · rw [hello_act post hdetach hreplay hdrop] at hhello
        exact hgone (h hhello)

/-- Only what was on loan is given back. -/
theorem Post.mem_loans_of_freed {post : Post} {action : Action} {buffer : Buffer}
    (h : (post.act action).2.1 = some buffer) : buffer ∈ post.loans := by
  have hsettle (held : Post) (hcapture : held.intercept.capture = post.intercept.capture)
      (hfreed : held.settle.1 = some buffer) : buffer ∈ post.loans := by
    rcases held.settle_cases with hheld | ⟨hall, -⟩
    · rw [hheld] at hfreed
      contradiction
    · rw [hall, hcapture] at hfreed
      exact mem_loans_iff.mpr (.inl hfreed)
  cases action with
  | passThrough => exact mem_loans_iff.mpr (.inl h)
  | replay =>
    simp only [act] at h
    cases hhello : post.hello with
    | none =>
      rw [hhello] at h
      contradiction
    | some capture =>
      rw [hhello] at h
      refine mem_loans_iff.mpr (.inr ?_)
      rw [hhello]
      exact congrArg some h
  | dropHello => exact mem_loans_iff.mpr (.inr (Option.join_eq_some_iff.mp h))
  | dropLibraryHalf => exact hsettle { post with libraryHolds := false } rfl h
  | dropTaskHalf => exact hsettle { post with taskHolds := false } rfl h
  | detach =>
    simp only [act] at h
    split at h <;> contradiction
  | _ => contradiction

/-- An action gives a buffer back, or leaves it on loan. -/
theorem Post.Parted.loans_act {post : Post} (h : post.Parted) (action : Action) :
    (post.act action).2.1.toList.length + (post.act action).2.2.loans.length =
      post.loans.length := by
  have hkept (action : Action) (hfreed : (post.act action).2.1 = none)
      (hcapture : (post.act action).2.2.intercept.capture.isSome = post.intercept.capture.isSome)
      (hhello : (post.act action).2.2.hello = post.hello) :
      (post.act action).2.1.toList.length + (post.act action).2.2.loans.length =
        post.loans.length := by
    simp only [loans, List.length_append, Option.length_toList, hfreed, hcapture, hhello]
    simp
  have hsettle (held : Post) (hcapture : held.intercept.capture = post.intercept.capture)
      (hhello : held.hello = post.hello) :
      held.settle.1.toList.length + held.settle.2.loans.length = post.loans.length := by
    have hstays := held.hello_settle
    rcases held.settle_cases with hheld | ⟨hfreed, hnone, -⟩
    · rw [hheld]
      simp [loans, hcapture, hhello]
    · simp only [loans, hfreed, hnone, hstays, hcapture, hhello, List.length_append]
      simp
  cases action with
  | read n =>
    have houtline := congrArg Outline.capture (post.intercept.outline_read n)
    have hsame : post.intercept.outline.read.capture = post.intercept.outline.capture := by
      unfold Outline.read
      split <;> rfl
    exact hkept _ rfl (houtline.trans hsame) rfl
  | passThrough =>
    simp [Post.act, Intercept.passThrough, loans]
  | detach =>
    cases hsocket : post.intercept.socket with
    | none =>
      rw [detach_of_none hsocket]
      simp [loans]
    | some near =>
      have hnone : post.hello = none := by
        cases hhello : post.hello with
        | none => rfl
        | some capture =>
          have hgone := h (by simp [hhello])
          rw [hsocket] at hgone
          contradiction
      rw [detach_of_some hsocket]
      simp [loans, hnone]
  | replay =>
    simp only [Post.act]
    cases hhello : post.hello with
    | none => simp [loans, hhello]
    | some capture => simp [loans, hhello, Nat.add_comm]
  | dropHello => simp [Post.act, loans, Nat.add_comm]
  | dropLibraryHalf => exact hsettle { post with libraryHolds := false } rfl rfl
  | dropTaskHalf => exact hsettle { post with taskHolds := false } rfl rfl
  | peerWrite | peerRead | peerClose | write | flush | shutdown | inspect | socketRead |
    socketWrite | socketDrop =>
    exact hkept _ rfl (by rw [post.capture_act (by simp) (by simp) (by simp) (by simp) (by simp)])
      (post.hello_act (by simp) (by simp) (by simp))

theorem Post.unread_atPeer (post : Post) {α : Type} (act : Link → α × Link)
    (h : ∀ far, (act far).2.outbound.buffered = far.outbound.buffered) :
    (post.atPeer act).2.unread = post.unread := by
  unfold atPeer unread
  cases hsocket : post.intercept.socket with
  | some near => exact h near.flip
  | none =>
    cases post.socket with
    | some near => simp [hsocket]
    | none => cases post.abandoned <;> simp [hsocket]

theorem Post.unread_settle (post : Post) :
    post.settle.2.unread = post.unread ∨ post.settle.2.unread = [] := by
  unfold settle
  split
  · exact .inl rfl
  · exact .inr rfl

/-- Only the peer adds to what there is to read, and only a read takes from it. -/
theorem Post.unread_act (post : Post) {action : Action} (hwrite : ∀ bs, action ≠ .peerWrite bs)
    (hread : ∀ n, action ≠ .read n) :
    (post.act action).2.2.unread = post.unread ∨ (post.act action).2.2.unread = [] := by
  cases action with
  | peerWrite bs => exact absurd rfl (hwrite bs)
  | read n => exact absurd rfl (hread n)
  | peerRead => exact .inl (post.unread_atPeer Link.readAll fun _ => rfl)
  | peerClose =>
    exact .inl (post.unread_atPeer (fun far => ((), far.drop))
      fun far => far.outbound.buffered_finish)
  | write bs =>
    simp only [act, unread, Intercept.write]
    split
    · exact .inl rfl
    · cases hsocket : post.intercept.socket <;> simp [hsocket, Link.write]
  | flush =>
    simp only [act, unread, Intercept.flush]
    split
    · exact .inl rfl
    · cases hsocket : post.intercept.socket <;> simp [hsocket, Link.flush]
  | shutdown =>
    simp only [act, unread, Intercept.shutdown]
    split
    · exact .inl rfl
    · cases hsocket : post.intercept.socket <;> simp [Link.shutdown]
  | inspect =>
    simp only [act, unread, Intercept.inspect]
    split <;> exact .inl rfl
  | passThrough => exact .inl rfl
  | detach =>
    cases hsocket : post.intercept.socket with
    | none => rw [detach_of_none hsocket]; exact .inl rfl
    | some near => rw [detach_of_some hsocket]; exact .inr rfl
  | replay =>
    simp only [act]
    cases post.hello <;> exact .inl rfl
  | dropHello => exact .inl rfl
  | socketRead n =>
    simp only [act, onSocket]
    cases post.socket <;> exact .inl rfl
  | socketWrite bs =>
    simp only [act, onSocket]
    cases post.socket <;> exact .inl rfl
  | socketDrop =>
    simp only [act, dropSocket]
    cases post.socket <;> exact .inl rfl
  | dropLibraryHalf => exact unread_settle { post with libraryHolds := false }
  | dropTaskHalf => exact unread_settle { post with taskHolds := false }

theorem Post.sublist_peerWrite (post : Post) (bs : Bytes) :
    (post.act (.peerWrite bs)).2.2.unread.Sublist
      (post.unread ++ sent (.peerWrite bs) (post.act (.peerWrite bs)).1) := by
  cases hsocket : post.intercept.socket with
  | none =>
    have hgone : (post.act (.peerWrite bs)).2.2.intercept.socket = none := by
      simp only [act, atPeer, hsocket]
      cases post.socket with
      | some near => exact hsocket
      | none => cases post.abandoned <;> exact hsocket
    rw [unread, hgone]
    exact List.nil_sublist _
  | some near =>
    simp only [act_peerWrite, atPeer, unread, hsocket, Link.write, Link.flip_outbound]
    rcases near.inbound.write_cases bs with ⟨result, hresult, hwrite⟩ | ⟨k, -, -, hwrite⟩
    · rw [hwrite]
      rcases hresult with rfl | ⟨rfl, -⟩ <;> simp [sent, Link.flip]
    · rw [hwrite]
      simp [sent, Link.flip]

/-- What is read is given to the library or lost, and what is left was behind it. -/
theorem Post.sublist_read (post : Post) (n : Nat) :
    (given (.read n) (post.act (.read n)).1 ++ (post.act (.read n)).2.2.unread).Sublist
      post.unread := by
  rw [act_read]
  cases hsocket : post.intercept.socket with
  | none =>
    have hread : post.intercept.read n = (.done [], post.intercept) := by
      unfold Intercept.read
      rw [hsocket]
    rw [hread]
    simp [given, unread, hsocket]
  | some near =>
    simp only [unread, Intercept.read, hsocket, Link.read]
    rcases near.inbound.read_cases n with ⟨result, hresult, hread⟩ | ⟨bs, rest, hread, hbuffered⟩
    · rw [hread]
      rcases hresult with rfl | rfl <;> simp [given]
    · rw [hread]
      rcases Intercept.keep_cases ⟨some { near with inbound.buffered := rest },
        post.intercept.phase.advance .buffering, post.intercept.capture⟩ bs with
        ⟨buffer, -, -, ⟨-, hkeep⟩ | hkeep⟩ | ⟨-, hkeep⟩ <;>
      · simp only [hkeep]
        simp [given, hbuffered]

/-- What an action gives the library, and what is left to read after it, was there to read before it
or is what the peer has just sent. -/
theorem Post.sublist_act (post : Post) (action : Action) :
    (given action (post.act action).1 ++ (post.act action).2.2.unread).Sublist
      (post.unread ++ sent action (post.act action).1) := by
  have hidle (hwrite : ∀ bs, action ≠ .peerWrite bs) (hread : ∀ n, action ≠ .read n)
      (hgiven : given action (post.act action).1 = []) :
      (given action (post.act action).1 ++ (post.act action).2.2.unread).Sublist
        (post.unread ++ sent action (post.act action).1) := by
    rw [hgiven, List.nil_append]
    rcases post.unread_act hwrite hread with hsame | hnone
    · rw [hsame]
      exact List.sublist_append_left _ _
    · rw [hnone]
      exact List.nil_sublist _
  cases action with
  | peerWrite bs => exact post.sublist_peerWrite bs
  | read n => exact (post.sublist_read n).trans (List.sublist_append_left _ _)
  | peerRead | peerClose | write | flush | shutdown | inspect | passThrough | detach | replay |
    dropHello | socketRead | socketWrite | socketDrop | dropLibraryHalf | dropTaskHalf =>
    exact hidle (by simp) (by simp) rfl

/-- What is known of a connection and its buffer from what was done on it, what that gave, and what
was given back. -/
structure Post.Accounted (post : Post) (past : List Action) (log : Log) (returned : List Buffer) :
    Prop where
  keeps : post.Keeps log
  tracks : post.standing.Tracks past
  parted : post.Parted
  once : returned.length + post.loans.length = 1
  own : ∀ buffer, buffer ∈ returned ∨ buffer ∈ post.loans → buffer.bytes <+: log.bytes given
  sourced : (log.bytes given ++ post.unread).Sublist (log.bytes sent)

namespace Post.Accounted

theorem new (room capacity : Nat) : (Post.new (.empty room) ⟨[], capacity⟩).Accounted [] [] [] := by
  refine ⟨keeps_new _ _, tracks_new _ _, parted_new _ _, rfl, ?_, List.nil_sublist _⟩
  rintro buffer (hnone | hloan)
  · contradiction
  · rcases mem_loans_iff.mp hloan with hcapture | hhello
    · rw [← Option.some.inj hcapture]
      exact List.nil_prefix
    · contradiction

variable {post : Post} {past : List Action} {log : Log} {returned : List Buffer}

/-- What a buffer holds after an action was in it before, or was read just now. -/
theorem own_act (h : post.Accounted past log returned) (action : Action) {buffer : Buffer}
    (hloan : buffer ∈ (post.act action).2.2.loans) :
    buffer.bytes <+: (log ++ [(action, (post.act action).1)]).bytes given := by
  have hbefore (hloan : buffer ∈ post.loans) :
      buffer.bytes <+: (log ++ [(action, (post.act action).1)]).bytes given := by
    rw [Log.bytes_append]
    exact (h.own buffer (.inr hloan)).trans (List.prefix_append _ _)
  rcases mem_loans_iff.mp hloan with hcapture | hhello
  · cases post.captures_act action with
    | gone hnone departs =>
      rw [hnone] at hcapture
      contradiction
    | same hsame silent =>
      rw [hsame] at hcapture
      exact hbefore (mem_loans_iff.mpr (.inl hcapture))
    | more held hheld hunseen hmore hroom =>
      rw [hmore, Option.some.injEq] at hcapture
      rw [← hcapture, Log.bytes_append, Log.bytes_singleton, ← h.keeps.bytes held hheld hunseen]
      exact List.prefix_refl _
  · by_cases hdetach : action = .detach
    · subst hdetach
      cases hsocket : post.intercept.socket with
      | none =>
        rw [detach_of_none hsocket] at hhello
        exact hbefore (mem_loans_iff.mpr (.inr hhello))
      | some near =>
        rw [detach_of_some hsocket] at hhello
        exact hbefore (mem_loans_iff.mpr (.inl (Option.some.inj hhello)))
    · by_cases hreplay : action = .replay
      · subst hreplay
        simp only [Post.act] at hhello
        split at hhello
        · contradiction
        · exact hbefore (mem_loans_iff.mpr (.inr hhello))
      · by_cases hdrop : action = .dropHello
        · subst hdrop
          contradiction
        · rw [hello_act post hdetach hreplay hdrop] at hhello
          exact hbefore (mem_loans_iff.mpr (.inr hhello))

theorem act (h : post.Accounted past log returned) (action : Action) :
    (post.act action).2.2.Accounted (past ++ [action]) (log ++ [(action, (post.act action).1)])
      (returned ++ (post.act action).2.1.toList) := by
  have htracks := h.tracks.act action
  rw [← standing_act] at htracks
  refine ⟨h.keeps.act action, htracks, h.parted.act action, ?_, ?_, ?_⟩
  · have hmoved := h.parted.loans_act action
    have honce := h.once
    rw [List.length_append]
    omega
  · intro buffer hbuffer
    rw [List.mem_append, Option.mem_toList] at hbuffer
    rcases hbuffer with (hearlier | hnow) | hloan
    · rw [Log.bytes_append]
      exact (h.own buffer (.inl hearlier)).trans (List.prefix_append _ _)
    · rw [Log.bytes_append]
      exact (h.own buffer (.inr (mem_loans_of_freed hnow))).trans (List.prefix_append _ _)
    · exact h.own_act action hloan
  · rw [Log.bytes_append, Log.bytes_append, Log.bytes_singleton, Log.bytes_singleton,
      List.append_assoc]
    refine List.Sublist.trans ?_ (List.Sublist.append_right h.sourced _)
    rw [List.append_assoc]
    exact List.Sublist.append_left (post.sublist_act action) _

theorem run (h : post.Accounted past log returned) (actions : List Action) :
    (post.run actions).2.Accounted (past ++ actions) (log ++ (post.run actions).1)
      (returned ++ post.returned actions) := by
  induction actions generalizing post past log returned with
  | nil => simpa [Post.run, Post.returned] using h
  | cons action rest ih =>
    have hrest := ih (h.act action)
    rw [List.append_assoc, List.append_assoc, List.append_assoc] at hrest
    exact hrest

end Post.Accounted
end Gatehouse.Capture
