import Gatehouse.Proofs.Capture.Standing

namespace Gatehouse.Capture
open Gatehouse.Stream

/-- Fresh bytes are kept, refused for want of room, or passed on because nothing is kept any more. -/
theorem Intercept.keep_cases (connection : Intercept) (fresh : Bytes) :
    (∃ buffer, connection.phase = .buffering ∧ connection.capture = some buffer ∧
      (buffer.bytes.length + fresh.length ≤ maxCapture ∧ connection.keep fresh =
        (.done fresh, { connection with capture := some (buffer.extend fresh) }) ∨
      connection.keep fresh = (.failed .captureLimit, connection))) ∨
    (connection.phase ≠ .buffering ∨ connection.capture = none) ∧
      connection.keep fresh = (.done fresh, connection) := by
  unfold keep
  split
  next buffer hphase hcapture =>
    refine .inl ⟨buffer, hphase, hcapture, ?_⟩
    by_cases hlimit : maxCapture < buffer.bytes.length + fresh.length
    · exact .inr (if_pos hlimit)
    · exact .inl ⟨Nat.le_of_not_lt hlimit, if_neg hlimit⟩
  next hother =>
    refine .inr ⟨?_, rfl⟩
    by_cases hphase : connection.phase = .buffering
    · cases hcapture : connection.capture with
      | none => exact .inr rfl
      | some buffer => exact absurd hcapture (hother buffer hphase)
    · exact .inl hphase

/-- A read off a socket gives nothing, or hands on what it takes off the front. -/
theorem Intercept.read_of_socket {connection : Intercept} {near : Link}
    (h : connection.socket = some near) (n : Nat) :
    (∃ result, (result = .waiting ∨ result = .failed .connectionReset) ∧ connection.read n =
      (result, { connection with phase := connection.phase.advance .buffering })) ∨
    ∃ bs rest, connection.read n = Intercept.keep
      ⟨some rest, connection.phase.advance .buffering, connection.capture⟩ bs := by
  unfold read
  rw [h]
  simp only [Link.read]
  rcases near.inbound.read_cases n with ⟨result, hresult, hread⟩ | ⟨bs, rest, hread, -⟩
  · rw [hread]
    refine .inl ⟨result, hresult, ?_⟩
    rcases hresult with rfl | rfl <;> rfl
  · rw [hread]
    exact .inr ⟨bs, _, rfl⟩

/-- Where the buffer goes when it leaves the connection: back to the pool, or along with the
socket. -/
inductive Departs (action : Action) (freed : Option Buffer) (next : Post) (buffer : Buffer) : Prop
  | passed (by_pass : action = .passThrough) (freed : freed = some buffer)
  | detached (by_detach : action = .detach) (hello : next.hello = some (some buffer))
  | dropped (by_drop : action = .dropLibraryHalf ∨ action = .dropTaskHalf)
      (unheld : next.libraryHolds = false ∧ next.taskHolds = false) (freed : freed = some buffer)

/-- What an action can do to the captured bytes: they go, they stay, or a read adds to them what it
gives. -/
inductive Captures (post : Post) (action : Action) (answer : Answer) (freed : Option Buffer)
    (next : Post) : Prop
  | gone (none : next.intercept.capture = none)
      (departs : ∀ buffer, post.intercept.capture = some buffer →
        Departs action freed next buffer)
  | same (capture : next.intercept.capture = post.intercept.capture)
      (silent : next.intercept.phase.rank < 2 → given action answer = [])
  | more (buffer : Buffer) (before : post.intercept.capture = some buffer)
      (unseen : post.intercept.phase.rank < 2)
      (capture : next.intercept.capture = some (buffer.extend (given action answer)))
      (room : buffer.bytes.length + (given action answer).length ≤ maxCapture)

theorem Phase.advance_buffering_eq_iff (phase : Phase) :
    phase.advance .buffering = .buffering ↔ phase.rank < 2 := by
  cases phase <;> decide

theorem Post.captures_read (post : Post) (n : Nat) :
    Captures post (.read n) (post.act (.read n)).1 (post.act (.read n)).2.1
      (post.act (.read n)).2.2 := by
  rw [act_read]
  cases hsocket : post.intercept.socket with
  | none =>
    have hread : post.intercept.read n = (.done [], post.intercept) := by
      unfold Intercept.read
      rw [hsocket]
    rw [hread]
    exact .same rfl fun _ => rfl
  | some near =>
    rcases Intercept.read_of_socket hsocket n with ⟨result, hresult, hread⟩ | ⟨bs, rest, hread⟩
    · rw [hread]
      refine .same rfl fun _ => ?_
      rcases hresult with rfl | rfl <;> rfl
    · rw [hread]
      rcases Intercept.keep_cases ⟨some rest, post.intercept.phase.advance .buffering,
        post.intercept.capture⟩ bs with ⟨buffer, hphase, hcapture, hkeep⟩ | ⟨hpast, hkeep⟩
      · have hunseen : post.intercept.phase.rank < 2 :=
          post.intercept.phase.advance_buffering_eq_iff.mp hphase
        rcases hkeep with ⟨hroom, hkeep⟩ | hkeep
        · rw [hkeep]
          exact .more buffer hcapture hunseen rfl hroom
        · rw [hkeep]
          exact .same rfl fun _ => rfl
      · rw [hkeep]
        rcases hpast with hpast | hpast
        · -- What is passed on and not kept is passed on after somebody has seen the bytes.
          refine .same rfl fun hrank => absurd ?_ hpast
          have hstart : post.intercept.phase.rank < 2 :=
            Nat.lt_of_le_of_lt (Phase.rank_le_advance _ _) hrank
          exact post.intercept.phase.advance_buffering_eq_iff.mpr hstart
        · have hnone : post.intercept.capture = none := hpast
          refine .gone hpast fun buffer hbuffer => ?_
          rw [hnone] at hbuffer
          contradiction

theorem Post.capture_atPeer {α : Type} (post : Post) (act : Link → α × Link) :
    (post.atPeer act).2.intercept.capture = post.intercept.capture := by
  unfold atPeer
  cases post.intercept.socket with
  | some near => rfl
  | none =>
    cases post.socket with
    | some near => rfl
    | none => cases post.abandoned <;> rfl

theorem Post.capture_onSocket {α : Type} (post : Post) (act : Link → α × Link) :
    (post.onSocket act).2.intercept.capture = post.intercept.capture := by
  unfold onSocket
  cases post.socket <;> rfl

/-- Only a read, the handle and the end of a half touch the capture buffer. -/
theorem Post.capture_act (post : Post) {action : Action} (hread : ∀ n, action ≠ .read n)
    (hpass : action ≠ .passThrough) (hdetach : action ≠ .detach)
    (hlibrary : action ≠ .dropLibraryHalf) (htask : action ≠ .dropTaskHalf) :
    (post.act action).2.2.intercept.capture = post.intercept.capture := by
  cases action with
  | peerWrite bs => exact post.capture_atPeer fun far => far.write bs
  | peerRead => exact post.capture_atPeer Link.readAll
  | peerClose => exact post.capture_atPeer fun far => ((), far.drop)
  | read n => exact absurd rfl (hread n)
  | write bs =>
    simp only [act, Intercept.write]
    split
    · rfl
    · cases post.intercept.socket <;> rfl
  | flush =>
    simp only [act, Intercept.flush]
    split
    · rfl
    · cases post.intercept.socket <;> rfl
  | shutdown =>
    simp only [act, Intercept.shutdown]
    split <;> rfl
  | inspect =>
    simp only [act, Intercept.inspect]
    split <;> rfl
  | passThrough => exact absurd rfl hpass
  | detach => exact absurd rfl hdetach
  | replay =>
    simp only [act]
    cases post.hello <;> rfl
  | dropHello => rfl
  | socketRead n => exact post.capture_onSocket fun near => near.read n
  | socketWrite bs => exact post.capture_onSocket fun near => near.write bs
  | socketDrop =>
    simp only [act, dropSocket]
    cases post.socket <;> rfl
  | dropLibraryHalf => exact absurd rfl hlibrary
  | dropTaskHalf => exact absurd rfl htask

theorem Post.settle_cases (post : Post) :
    (post.settle = (none, post)) ∨
    (post.settle.1 = post.intercept.capture ∧ post.settle.2.intercept.capture = none ∧
      post.settle.2.libraryHolds = false ∧ post.settle.2.taskHolds = false) := by
  unfold settle
  by_cases hheld : (post.libraryHolds || post.taskHolds) = true
  · exact .inl (if_pos hheld)
  · rw [if_neg hheld]
    rw [Bool.not_eq_true, Bool.or_eq_false_iff] at hheld
    exact .inr ⟨rfl, rfl, hheld.1, hheld.2⟩

theorem Post.captures_settle (post : Post) {action : Action} (held : Post)
    (hcapture : held.intercept.capture = post.intercept.capture)
    (hdrop : action = .dropLibraryHalf ∨ action = .dropTaskHalf) :
    Captures post action .nothing held.settle.1 held.settle.2 := by
  have hgiven : given action .nothing = [] := by
    rcases hdrop with rfl | rfl <;> rfl
  rcases held.settle_cases with hheld | ⟨hfreed, hnone, hunheld⟩
  · rw [hheld]
    exact .same hcapture fun _ => hgiven
  · refine .gone hnone fun buffer hbuffer => ?_
    exact .dropped hdrop hunheld (by rw [hfreed, hcapture, hbuffer])

theorem Post.captures_detach (post : Post) :
    Captures post .detach (post.act .detach).1 (post.act .detach).2.1
      (post.act .detach).2.2 := by
  simp only [act, Intercept.detach]
  cases post.intercept.socket with
  | none => exact .same rfl fun _ => rfl
  | some near =>
    refine .gone rfl fun buffer hbuffer => ?_
    exact .detached rfl (congrArg some hbuffer)

/-- What becomes of the captured bytes with any action. -/
theorem Post.captures_act (post : Post) (action : Action) :
    Captures post action (post.act action).1 (post.act action).2.1 (post.act action).2.2 := by
  cases action with
  | read n => exact post.captures_read n
  | passThrough => exact .gone rfl fun buffer hbuffer => .passed rfl hbuffer
  | detach => exact post.captures_detach
  | dropLibraryHalf => exact post.captures_settle { post with libraryHolds := false } rfl (.inl rfl)
  | dropTaskHalf => exact post.captures_settle { post with taskHolds := false } rfl (.inr rfl)
  | peerWrite | peerRead | peerClose | write | flush | shutdown | inspect | replay | dropHello |
    socketRead | socketWrite | socketDrop =>
    exact .same (post.capture_act (by simp) (by simp) (by simp) (by simp) (by simp)) fun _ => rfl

/-- As long as nobody has seen them, the captured bytes are those that the library was given, and
never are there more of them than may be. -/
structure Post.Keeps (post : Post) (log : Log) : Prop where
  bytes : ∀ buffer, post.intercept.capture = some buffer → post.intercept.phase.rank < 2 →
    buffer.bytes = log.bytes given
  bounded : ∀ buffer, post.intercept.capture = some buffer → buffer.bytes.length ≤ maxCapture

theorem Post.rank_le_act (post : Post) (action : Action) :
    post.intercept.phase.rank ≤ (post.act action).2.2.intercept.phase.rank := by
  have hphase : (post.act action).2.2.intercept.phase = (post.standing.act action).phase :=
    congrArg (fun s => s.phase) (post.standing_act action)
  rw [hphase]
  change post.standing.phase.rank ≤ _
  generalize post.standing = s
  have hlast : s.phase.rank ≤ Phase.passthrough.rank := by cases s.phase <;> decide
  cases action with
  | read n =>
    simp only [Standing.act, Outline.read]
    split
    · exact Phase.rank_le_advance _ _
    · exact Nat.le_refl _
  | inspect => exact Phase.rank_le_advance _ _
  | passThrough => exact hlast
  | detach => exact hlast
  | dropLibraryHalf | dropTaskHalf =>
    simp only [Standing.act, Standing.settle]
    split <;> exact Nat.le_refl _
  | _ => exact Nat.le_refl _

theorem Post.Keeps.act {post : Post} {log : Log} (h : post.Keeps log) (action : Action) :
    (post.act action).2.2.Keeps (log ++ [(action, (post.act action).1)]) := by
  have hforward := post.rank_le_act action
  cases post.captures_act action with
  | gone hnone departs =>
    constructor <;> simp [hnone]
  | same hcapture silent =>
    refine ⟨?_, ?_⟩
    · intro buffer hbuffer hunseen
      rw [hcapture] at hbuffer
      rw [Log.bytes_append, Log.bytes_singleton, silent hunseen, List.append_nil]
      exact h.bytes buffer hbuffer (Nat.lt_of_le_of_lt hforward hunseen)
    · intro buffer hbuffer
      rw [hcapture] at hbuffer
      exact h.bounded buffer hbuffer
  | more buffer hbefore hunseen hcapture hroom =>
    refine ⟨?_, ?_⟩
    · intro buffer' hbuffer' _
      rw [hcapture, Option.some.injEq] at hbuffer'
      rw [← hbuffer', Log.bytes_append, Log.bytes_singleton, ← h.bytes buffer hbefore hunseen]
      rfl
    · intro buffer' hbuffer'
      rw [hcapture, Option.some.injEq] at hbuffer'
      rw [← hbuffer', Buffer.extend, List.length_append]
      exact hroom

theorem Post.keeps_run {post : Post} {log : Log} (h : post.Keeps log) (actions : List Action) :
    (post.run actions).2.Keeps (log ++ (post.run actions).1) := by
  induction actions generalizing post log with
  | nil => simpa [run] using h
  | cons action rest ih =>
    have hrest := ih (h.act action)
    rw [List.append_assoc] at hrest
    exact hrest

/-- The captured bytes were shown. -/
def shown : Action → Answer → Bool
  | .inspect, .shown (some _) => true
  | _, _ => false

/-- The socket was handed out. -/
def yielded : Action → Answer → Bool
  | .detach, .detached (some _) => true
  | _, _ => false

/-- How often something happened in a run. -/
def Log.times (log : Log) (what : Action → Answer → Bool) : Nat :=
  log.countP fun e => what e.1 e.2

/-- What happens only behind an open door, and closes it for good, happens once at most. -/
theorem Post.times_le {what : Action → Answer → Bool} (isOpen : Post → Prop)
    (closes : ∀ post action, what action (post.act action).1 = true →
      isOpen post ∧ ¬ isOpen (post.act action).2.2)
    (stays : ∀ post action, isOpen (post.act action).2.2 → isOpen post)
    (post : Post) (actions : List Action) :
    (post.run actions).1.times what ≤ 1 ∧
      (¬ isOpen post → (post.run actions).1.times what = 0) := by
  induction actions generalizing post with
  | nil => exact ⟨Nat.zero_le _, fun _ => rfl⟩
  | cons action rest ih =>
    have hsplit : (post.run (action :: rest)).1.times what =
        ((post.act action).2.2.run rest).1.times what +
          if what action (post.act action).1 = true then 1 else 0 :=
      List.countP_cons
    obtain ⟨hone, hnone⟩ := ih (post.act action).2.2
    by_cases hnow : what action (post.act action).1 = true
    · obtain ⟨hopen, hclosed⟩ := closes post action hnow
      rw [hsplit, hnone hclosed, if_pos hnow]
      exact ⟨Nat.le_refl 1, fun hnot => absurd hopen hnot⟩
    · rw [hsplit, if_neg hnow]
      exact ⟨hone, fun hnot => hnone fun hopen => hnot (stays post action hopen)⟩

theorem Post.inspect_fst (post : Post) :
    (post.act .inspect).1 = .shown (if post.intercept.phase.rank < 2
      then some (captured post.intercept.capture) else none) := by
  have hact : (post.act .inspect).1 = .shown post.intercept.inspect.1 := rfl
  rw [hact, Intercept.inspect]
  by_cases hseen : Phase.helloCaptured.rank ≤ post.intercept.phase.rank
  · have hnot : ¬ post.intercept.phase.rank < 2 := Nat.not_lt.mpr hseen
    rw [if_pos hseen, if_neg hnot]
  · have hunseen : post.intercept.phase.rank < 2 := Nat.lt_of_not_le hseen
    rw [if_neg hseen, if_pos hunseen]

theorem Post.detach_of_none {post : Post} (h : post.intercept.socket = none) :
    post.act .detach =
      (.detached none, none, { post with
        intercept := { post.intercept with phase := .passthrough } }) := by
  simp only [act, Intercept.detach]
  rw [h]

theorem Post.detach_of_some {post : Post} {near : Link} (h : post.intercept.socket = some near) :
    post.act .detach = (.detached (some (captured post.intercept.capture)), none, { post with
      intercept := ⟨none, .passthrough, none⟩
      socket := some near
      hello := some post.intercept.capture }) := by
  simp only [act, Intercept.detach]
  rw [h]

theorem Post.times_shown (post : Post) (actions : List Action) :
    (post.run actions).1.times shown ≤ 1 := by
  refine (times_le (fun post => post.intercept.phase.rank < 2) ?_ ?_ post actions).1
  · intro post action hshown
    cases action with
    | inspect =>
      have hunseen : post.intercept.phase.rank < 2 := by
        by_cases hunseen : post.intercept.phase.rank < 2
        · exact hunseen
        · rw [post.inspect_fst, if_neg hunseen] at hshown
          contradiction
      have hmove : (post.act .inspect).2.2.intercept.phase = .helloCaptured := by
        have hnot : ¬ Phase.helloCaptured.rank ≤ post.intercept.phase.rank :=
          Nat.not_le.mpr hunseen
        simp only [act, Intercept.inspect]
        rw [if_neg hnot]
      refine ⟨hunseen, ?_⟩
      rw [hmove]
      decide
    | _ => simp [shown] at hshown
  · intro post action hnext
    exact Nat.lt_of_le_of_lt (post.rank_le_act action) hnext

/-- A socket that is gone does not come back. -/
theorem Post.socket_of_act {post : Post} {action : Action}
    (h : (post.act action).2.2.intercept.socket.isSome = true) :
    post.intercept.socket.isSome = true := by
  have hstanding : (post.standing.act action).socket = true := by
    rw [← post.standing_act action]
    exact h
  change post.standing.socket = true
  revert hstanding
  generalize post.standing = s
  intro hstanding
  cases action with
  | read n =>
    simp only [Standing.act, Outline.read] at hstanding
    split at hstanding
    · assumption
    · exact hstanding
  | detach => simp [Standing.act, Outline.detach] at hstanding
  | dropLibraryHalf | dropTaskHalf =>
    simp only [Standing.act, Standing.settle] at hstanding
    split at hstanding
    · exact hstanding
    · contradiction
  | _ => exact hstanding

theorem Post.times_yielded (post : Post) (actions : List Action) :
    (post.run actions).1.times yielded ≤ 1 := by
  refine (times_le (fun post => post.intercept.socket.isSome = true) ?_ ?_ post actions).1
  · intro post action hyielded
    cases action with
    | detach =>
      cases hsocket : post.intercept.socket with
      | none =>
        rw [detach_of_none hsocket] at hyielded
        contradiction
      | some near =>
        rw [detach_of_some hsocket]
        simp
    | _ => simp [yielded] at hyielded
  · intro post action hnext
    exact socket_of_act hnext

/-- The buffers that leave the connection in a run, in order. -/
def Post.departures (post : Post) : List Action → List Buffer
  | [] => []
  | action :: rest =>
    let next := (post.act action).2.2
    (if next.intercept.capture = none then post.intercept.capture.toList else []) ++
      next.departures rest

theorem Post.capture_of_none {post : Post} (h : post.intercept.capture = none)
    (action : Action) : (post.act action).2.2.intercept.capture = none := by
  cases post.captures_act action with
  | gone hnone departs => exact hnone
  | same hcapture silent => rw [hcapture, h]
  | more buffer hbefore hunseen hcapture hroom =>
    rw [h] at hbefore
    contradiction

theorem Post.capture_run_of_none {post : Post} (h : post.intercept.capture = none)
    (actions : List Action) : (post.run actions).2.intercept.capture = none := by
  induction actions generalizing post with
  | nil => exact h
  | cons action rest ih => exact ih (capture_of_none h action)

theorem Post.departures_of_none {post : Post} (h : post.intercept.capture = none)
    (actions : List Action) : post.departures actions = [] := by
  induction actions generalizing post with
  | nil => rfl
  | cons action rest ih =>
    have hnext := capture_of_none h action
    simp [departures, hnext, h, ih hnext]

/-- The buffer leaves once if it is gone in the end, and else not at all. -/
theorem Post.length_departures {post : Post} {buffer : Buffer}
    (h : post.intercept.capture = some buffer) (actions : List Action) :
    (post.departures actions).length =
      if (post.run actions).2.intercept.capture = none then 1 else 0 := by
  induction actions generalizing post buffer with
  | nil => simp [departures, run, h]
  | cons action rest ih =>
    have hrun : (post.run (action :: rest)).2 = ((post.act action).2.2.run rest).2 := rfl
    rw [hrun]
    -- Once the buffer has gone there is none that could go again.
    cases hnext : (post.act action).2.2.intercept.capture with
    | none =>
      have hnone := departures_of_none hnext rest
      have hlast := capture_run_of_none hnext rest
      simp [departures, hnext, h, hnone, hlast]
    | some buffer' =>
      have hrest := ih hnext
      simpa [departures, hnext] using hrest

/-- What holds of a connection at any time, when it is known what was done on it and what the
actions gave. -/
structure Post.Disciplined (post : Post) (past : List Action) (log : Log) : Prop where
  forward : ∀ action,
    post.intercept.phase.rank ≤ (post.act action).2.2.intercept.phase.rank
  /-- While the decision is open, all that the library writes is taken, and none of it is felt. -/
  swallowed : post.intercept.phase ≠ .passthrough →
    (∀ bs, post.act (.write bs) = (.bytesWritten (.done bs.length), none, post)) ∧
    post.act .flush = (.finished (.done ()), none, post) ∧
    post.act .shutdown = (.finished (.done ()), none, post)
  shown : post.taskHolds = true → (post.act .inspect).1 = .shown
    (if .inspect ∈ past ∨ .passThrough ∈ past ∨ .detach ∈ past then none
      else some (log.bytes given))
  bounded : (captured post.intercept.capture).length ≤ maxCapture
  /-- Once the captured bytes were seen, or there is nothing to decide any more, none are added. -/
  unfed : Phase.helloCaptured.rank ≤ post.intercept.phase.rank → ∀ action,
    (post.act action).2.2.intercept.capture = none ∨
      (post.act action).2.2.intercept.capture = post.intercept.capture
  /-- The socket and the buffer go to whoever detaches first. -/
  detached : post.taskHolds = true →
    if .detach ∈ past then post.act .detach = (.detached none, none, post)
    else ∃ near, post.intercept.socket = some near ∧
      (post.act .detach).1 = .detached (some (captured post.intercept.capture)) ∧
      (post.act .detach).2.2.socket = some near ∧
      (post.act .detach).2.2.hello = some post.intercept.capture
  severed : .detach ∈ past →
    (∀ n, post.act (.read n) = (.bytesRead (.done []), none, post)) ∧
    ∀ bs, ∃ fault, fault.kind = "NotConnected" ∧
      post.act (.write bs) = (.bytesWritten (.failed fault), none, post)
  held : post.intercept.capture = none ↔
    .passThrough ∈ past ∨ .detach ∈ past ∨ BothDropped past
  departs : ∀ action buffer, post.intercept.capture = some buffer →
    (post.act action).2.2.intercept.capture = none →
    Departs action (post.act action).2.1 (post.act action).2.2 buffer

section Reached
variable {post : Post} {past : List Action} {log : Log}

theorem Standing.Tracks.socket_eq_none_iff (h : post.standing.Tracks past) :
    post.intercept.socket = none ↔ .detach ∈ past ∨ BothDropped past := by
  have hgone : post.standing.socket = false ↔ post.intercept.socket = none := by
    simp [Post.standing, Intercept.outline]
  rw [← hgone, h.socket]

theorem Standing.Tracks.capture_eq_none_iff (h : post.standing.Tracks past) :
    post.intercept.capture = none ↔ .passThrough ∈ past ∨ .detach ∈ past ∨ BothDropped past := by
  have hgone : post.standing.capture = false ↔ post.intercept.capture = none := by
    simp [Post.standing, Intercept.outline]
  rw [← hgone, h.capture]

theorem Standing.Tracks.not_bothDropped (h : post.standing.Tracks past)
    (htask : post.taskHolds = true) : ¬ BothDropped past := by
  rintro ⟨-, hdropped⟩
  have hgone : post.taskHolds = false := h.task.mpr hdropped
  rw [htask] at hgone
  contradiction

/-- What is shown is what the library was given, if it was not shown before and the decision is
open. -/
theorem Post.Keeps.shown (h : post.Keeps log) (htracks : post.standing.Tracks past)
    (htask : post.taskHolds = true) : (post.act .inspect).1 = .shown
      (if .inspect ∈ past ∨ .passThrough ∈ past ∨ .detach ∈ past then none
        else some (log.bytes given)) := by
  rw [post.inspect_fst]
  by_cases hseen : .inspect ∈ past ∨ .passThrough ∈ past ∨ .detach ∈ past
  · have hrank : ¬ post.intercept.phase.rank < 2 := by
      intro hunseen
      obtain ⟨hinspect, hpass, hdetach⟩ := htracks.unseen.mp hunseen
      rcases hseen with h | h | h
      · exact hinspect h
      · exact hpass h
      · exact hdetach h
    rw [if_pos hseen, if_neg hrank]
  · obtain ⟨hinspect, hdecided⟩ := not_or.mp hseen
    obtain ⟨hpass, hdetach⟩ := not_or.mp hdecided
    have hrank : post.intercept.phase.rank < 2 := htracks.unseen.mpr ⟨hinspect, hpass, hdetach⟩
    rw [if_neg hseen, if_pos hrank]
    cases hcapture : post.intercept.capture with
    | none =>
      rcases htracks.capture_eq_none_iff.mp hcapture with h | h | h
      · exact absurd h hpass
      · exact absurd h hdetach
      · exact absurd h (htracks.not_bothDropped htask)
    | some buffer =>
      have hbytes := h.bytes buffer hcapture hrank
      rw [← hbytes]
      rfl

theorem Post.Keeps.captured_le (h : post.Keeps log) :
    (captured post.intercept.capture).length ≤ maxCapture := by
  cases hcapture : post.intercept.capture with
  | none => exact Nat.zero_le _
  | some buffer => exact h.bounded buffer hcapture

theorem Post.unfed_act (hseen : 2 ≤ post.intercept.phase.rank) (action : Action) :
    (post.act action).2.2.intercept.capture = none ∨
      (post.act action).2.2.intercept.capture = post.intercept.capture := by
  cases post.captures_act action with
  | gone hnone departs => exact .inl hnone
  | same hcapture silent => exact .inr hcapture
  | more buffer hbefore hunseen hcapture hroom => omega

theorem Post.departs_act {action : Action} {buffer : Buffer}
    (hbuffer : post.intercept.capture = some buffer)
    (hgone : (post.act action).2.2.intercept.capture = none) :
    Departs action (post.act action).2.1 (post.act action).2.2 buffer := by
  cases post.captures_act action with
  | gone hnone departs => exact departs buffer hbuffer
  | same hcapture silent =>
    rw [hcapture, hbuffer] at hgone
    contradiction
  | more buffer' hbefore hunseen hcapture hroom =>
    rw [hcapture] at hgone
    contradiction

theorem Standing.Tracks.detached (h : post.standing.Tracks past)
    (htask : post.taskHolds = true) :
    if .detach ∈ past then post.act .detach = (.detached none, none, post)
    else ∃ near, post.intercept.socket = some near ∧
      (post.act .detach).1 = .detached (some (captured post.intercept.capture)) ∧
      (post.act .detach).2.2.socket = some near ∧
      (post.act .detach).2.2.hello = some post.intercept.capture := by
  by_cases hdetach : .detach ∈ past
  · rw [if_pos hdetach]
    have hsocket := h.socket_eq_none_iff.mpr (.inl hdetach)
    have hphase : post.intercept.phase = .passthrough := h.decided.mpr (.inr hdetach)
    rw [Post.detach_of_none hsocket, ← hphase]
  · rw [if_neg hdetach]
    cases hsocket : post.intercept.socket with
    | none =>
      rcases h.socket_eq_none_iff.mp hsocket with h' | h'
      · exact absurd h' hdetach
      · exact absurd h' (h.not_bothDropped htask)
    | some near =>
      rw [Post.detach_of_some hsocket]
      exact ⟨near, rfl, rfl, rfl, rfl⟩

theorem Standing.Tracks.severed (h : post.standing.Tracks past) (hdetach : .detach ∈ past) :
    (∀ n, post.act (.read n) = (.bytesRead (.done []), none, post)) ∧
    ∀ bs, ∃ fault, fault.kind = "NotConnected" ∧
      post.act (.write bs) = (.bytesWritten (.failed fault), none, post) := by
  have hsocket := h.socket_eq_none_iff.mpr (.inl hdetach)
  have hphase : post.intercept.phase = .passthrough := h.decided.mpr (.inr hdetach)
  refine ⟨?_, ?_⟩
  · intro n
    rw [Post.act_read, Intercept.read, hsocket]
  · intro bs
    refine ⟨.handedOver, rfl, ?_⟩
    simp only [Post.act, Intercept.write]
    rw [if_neg (by simp [hphase]), hsocket]

theorem Post.Keeps.disciplined (h : post.Keeps log) (htracks : post.standing.Tracks past) :
    post.Disciplined past log where
  forward := post.rank_le_act
  swallowed hopen := ⟨act_write_of_open hopen, act_flush_of_open hopen, act_shutdown_of_open hopen⟩
  shown := h.shown htracks
  bounded := h.captured_le
  unfed := unfed_act
  detached := htracks.detached
  severed := htracks.severed
  held := htracks.capture_eq_none_iff
  departs _ _ := departs_act

end Reached

theorem Post.keeps_new (socket : Link) (room : Nat) : (Post.new socket ⟨[], room⟩).Keeps [] := by
  refine ⟨?_, ?_⟩
  · intro buffer hbuffer _
    cases hbuffer
    rfl
  · intro buffer hbuffer
    cases hbuffer
    exact Nat.zero_le _

/-- Whatever is done on a connection, in any order: it is well behaved at the end of every run; in
all of the run the captured bytes are shown once at most and the socket is handed out once at most;
and the buffer leaves once, if it is not still there. -/
theorem interception_disciplined (socket : Link) (room : Nat) (actions : List Action) :
    ∃ log last, (Post.new socket ⟨[], room⟩).run actions = (log, last) ∧
      last.Disciplined actions log ∧ log.times shown ≤ 1 ∧ log.times yielded ≤ 1 ∧
      ((Post.new socket ⟨[], room⟩).departures actions).length =
        if last.intercept.capture = none then 1 else 0 := by
  have htracks := Post.tracks_run (Post.tracks_new socket ⟨[], room⟩) actions
  have hkeeps := Post.keeps_run (Post.keeps_new socket room) actions
  rw [List.nil_append] at htracks hkeeps
  refine ⟨_, _, rfl, hkeeps.disciplined htracks, ?_, ?_, ?_⟩
  · exact Post.times_shown _ actions
  · exact Post.times_yielded _ actions
  · exact Post.length_departures rfl actions

end Gatehouse.Capture
