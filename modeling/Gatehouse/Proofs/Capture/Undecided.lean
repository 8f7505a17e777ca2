import Gatehouse.Gate.Visit
import Gatehouse.Proofs.Stream.Pipe

namespace Gatehouse.Capture
open Gatehouse.Stream

/-- What was done on one connection, and what each action gave. -/
abbrev Log := List (Action × Answer)

/-- The log of a sequence of actions, and the connection after it. -/
def Post.run (post : Post) : List Action → Log × Post
  | [] => ([], post)
  | action :: rest =>
    let (answer, _, post) := post.act action
    let (log, post) := post.run rest
    ((action, answer) :: log, post)

/-- What the peer put into its stream with an action. -/
def sent : Action → Answer → Bytes
  | .peerWrite bs, .bytesWritten (.done n) => bs.take n
  | _, _ => []

/-- What the library was given with an answer. -/
def given : Action → Answer → Bytes
  | .read _, .bytesRead (.done bs) => bs
  | _, _ => []

/-- What the peer received with an answer. -/
def received : Action → Answer → Bytes
  | .peerRead, .available bs _ => bs
  | _, _ => []

/-- The bytes of a kind in a run. -/
def Log.bytes (log : Log) (which : Action → Answer → Bytes) : Bytes :=
  log.flatMap fun e => which e.1 e.2

/-- A read that failed because more would have been captured than is kept. -/
def overflow : Answer := .bytesRead (.failed .captureLimit)

/-- How many reads ran into the limit of the capture. -/
def Log.overflows (log : Log) : Nat := log.countP fun e => e.2 == overflow

namespace Log

@[simp] theorem bytes_singleton (which : Action → Answer → Bytes) (action : Action)
    (answer : Answer) : bytes [(action, answer)] which = which action answer := by
  simp [bytes]

@[simp] theorem bytes_append (before after : Log) (which : Action → Answer → Bytes) :
    bytes (before ++ after) which = before.bytes which ++ after.bytes which :=
  List.flatMap_append

@[simp] theorem overflows_append (before after : Log) :
    overflows (before ++ after) = before.overflows + after.overflows :=
  List.countP_append

@[simp] theorem overflows_singleton (action : Action) (answer : Answer) :
    overflows [(action, answer)] = if answer = overflow then 1 else 0 := by
  simp [overflows, List.countP_cons]

end Log

/-- Nobody has looked at the captured bytes, and socket and buffer are still in place. -/
structure Post.Undecided (post : Post) (near : Link) (buffer : Buffer) : Prop where
  socket : post.intercept.socket = some near
  capture : post.intercept.capture = some buffer
  early : post.intercept.phase = .unread ∨ post.intercept.phase = .buffering

theorem Post.undecided_new (socket : Link) (buffer : Buffer) :
    (Post.new socket buffer).Undecided socket buffer :=
  ⟨rfl, rfl, .inl rfl⟩

/-- What a stretch of a run does to socket and buffer. -/
structure Exchange (near : Link) (buffer : Buffer) (log : Log) (near' : Link) (buffer' : Buffer) :
    Prop where
  captured : buffer'.bytes = buffer.bytes ++ log.bytes given
  silent : log.bytes received ++ near'.outbound.buffered = near.outbound.buffered
  kept : log.overflows = 0 → buffer'.bytes ++ near'.inbound.buffered =
    buffer.bytes ++ near.inbound.buffered ++ log.bytes sent
  bounded : buffer.bytes.length ≤ maxCapture → buffer'.bytes.length ≤ maxCapture
  lost : buffer.bytes.length ≤ maxCapture →
    (buffer'.bytes ++ near'.inbound.buffered).length + log.overflows ≤
      (buffer.bytes ++ near.inbound.buffered ++ log.bytes sent).length

theorem Post.Undecided.withSocket {post : Post} {near : Link} {buffer : Buffer}
    (h : post.Undecided near buffer) (near' : Link) :
    Undecided { post with intercept := { post.intercept with socket := some near' } } near'
      buffer :=
  ⟨rfl, h.capture, h.early⟩

theorem Post.Undecided.atPeer {post : Post} {near : Link} {buffer : Buffer} {α : Type}
    (h : post.Undecided near buffer) (act : Link → α × Link) :
    post.atPeer act = (some (act near.flip).1, { post with
      intercept := { post.intercept with socket := some (act near.flip).2.flip } }) := by
  simp [Post.atPeer, h.socket]

theorem Post.act_read (post : Post) (n : Nat) :
    post.act (.read n) = (.bytesRead (post.intercept.read n).1, none,
      { post with intercept := (post.intercept.read n).2 }) := rfl

theorem Post.act_peerWrite (post : Post) (bs : Bytes) :
    post.act (.peerWrite bs) =
      (((post.atPeer fun far => far.write bs).1.map .bytesWritten).getD .nothing, none,
        (post.atPeer fun far => far.write bs).2) := rfl

theorem Post.act_write_of_open {post : Post} (h : post.intercept.phase ≠ .passthrough)
    (bs : Bytes) : post.act (.write bs) = (.bytesWritten (.done bs.length), none, post) := by
  have hwrite : post.intercept.write bs = (.done bs.length, post.intercept) := if_pos h
  simp only [act]
  rw [hwrite]

theorem Post.act_flush_of_open {post : Post} (h : post.intercept.phase ≠ .passthrough) :
    post.act .flush = (.finished (.done ()), none, post) := by
  have hflush : post.intercept.flush = (.done (), post.intercept) := if_pos h
  simp only [act]
  rw [hflush]

theorem Post.act_shutdown_of_open {post : Post} (h : post.intercept.phase ≠ .passthrough) :
    post.act .shutdown = (.finished (.done ()), none, post) := by
  have hshut : post.intercept.shutdown = (.done (), post.intercept) := if_pos h
  simp only [act]
  rw [hshut]

/-- A read while the decision is open: nothing comes of it, it is given and kept, or it is taken off
the socket and lost. -/
theorem Post.Undecided.read_cases {post : Post} {near : Link} {buffer : Buffer}
    (h : post.Undecided near buffer) (n : Nat) :
    (∃ result, (result = .waiting ∨ result = .failed .connectionReset) ∧ post.intercept.read n =
      (result, ⟨some near, .buffering, some buffer⟩)) ∨
    ∃ bs rest, near.inbound.buffered = bs ++ rest ∧
      (buffer.bytes.length + bs.length ≤ maxCapture ∧ post.intercept.read n = (.done bs,
        ⟨some { near with inbound.buffered := rest }, .buffering, some (buffer.extend bs)⟩) ∨
      maxCapture < buffer.bytes.length + bs.length ∧ post.intercept.read n = (.failed .captureLimit,
        ⟨some { near with inbound.buffered := rest }, .buffering, some buffer⟩)) := by
  have hphase : post.intercept.phase.advance .buffering = .buffering := by
    rcases h.early with he | he <;> rw [he] <;> rfl
  unfold Intercept.read
  rw [h.socket]
  simp only [hphase, Link.read]
  rcases near.inbound.read_cases n with ⟨result, hresult, hread⟩ | ⟨bs, rest, hread, hbuffered⟩
  · rw [hread]
    refine .inl ⟨result, hresult, ?_⟩
    rcases hresult with rfl | rfl <;> rw [h.capture]
  · rw [hread]
    refine .inr ⟨bs, rest, hbuffered, ?_⟩
    simp only [Intercept.keep, h.capture]
    by_cases hlimit : maxCapture < buffer.bytes.length + bs.length
    · rw [if_pos hlimit]
      exact .inr ⟨hlimit, rfl⟩
    · rw [if_neg hlimit]
      exact .inl ⟨Nat.le_of_not_lt hlimit, rfl⟩

/-- Nothing but time passes. -/
theorem Exchange.idle {near : Link} {buffer : Buffer} {action : Action} {answer : Answer}
    (hs : sent action answer = []) (hg : given action answer = [])
    (hr : received action answer = []) (ho : answer ≠ overflow) :
    Exchange near buffer [(action, answer)] near buffer := by
  refine ⟨?_, ?_, ?_, id, ?_⟩
  · simp [hg]
  · simp [hr]
  · simp [hs]
  · simp [hs, ho]

/-- One step of a run that leaves the decision open. -/
def Post.Exchanges (post : Post) (near : Link) (buffer : Buffer) (action : Action) : Prop :=
  ∃ near' buffer', (post.act action).2.2.Undecided near' buffer' ∧
    Exchange near buffer [(action, (post.act action).1)] near' buffer'

section Steps
variable {post : Post} {near : Link} {buffer : Buffer}

/-- A reply of the library's half that leaves everything as it is. -/
theorem Post.Undecided.exchanges_idle (h : post.Undecided near buffer) {action : Action}
    {answer : Answer} (hact : post.act action = (answer, none, post))
    (hs : sent action answer = []) (hg : given action answer = [])
    (hr : received action answer = []) (ho : answer ≠ overflow) :
    post.Exchanges near buffer action := by
  unfold Exchanges
  rw [hact]
  exact ⟨near, buffer, h, .idle hs hg hr ho⟩

theorem Post.Undecided.exchanges_read (h : post.Undecided near buffer) (n : Nat) :
    post.Exchanges near buffer (.read n) := by
  unfold Exchanges
  rw [act_read]
  rcases h.read_cases n with ⟨result, hresult, hread⟩ | ⟨bs, rest, hbuffered, hread⟩
  · rw [hread]
    refine ⟨near, buffer, ⟨rfl, rfl, .inr rfl⟩, ?_⟩
    rcases hresult with rfl | rfl <;> exact .idle rfl rfl rfl (by simp [overflow])
  · rcases hread with ⟨hlimit, hread⟩ | ⟨hlimit, hread⟩
    · rw [hread]
      refine ⟨_, _, ⟨rfl, rfl, .inr rfl⟩, ?_, ?_, ?_, ?_, ?_⟩
      · simp [Buffer.extend, given]
      · simp [received]
      · simp [Buffer.extend, sent, hbuffered]
      · simpa [Buffer.extend] using fun _ => hlimit
      · simp [Buffer.extend, sent, hbuffered, overflow]
    · rw [hread]
      refine ⟨_, _, ⟨rfl, rfl, .inr rfl⟩, ?_, ?_, ?_, id, ?_⟩
      · simp [given]
      · simp [received]
      · simp [overflow]
      · intro hbound
        simp [sent, hbuffered, overflow]
        omega

theorem Post.Undecided.exchanges_peerWrite (h : post.Undecided near buffer) (bs : Bytes) :
    post.Exchanges near buffer (.peerWrite bs) := by
  unfold Exchanges
  rw [act_peerWrite, h.atPeer]
  simp only [Link.write, Link.flip_outbound, Option.map_some, Option.getD_some]
  rcases near.inbound.write_cases bs with ⟨result, hresult, hwrite⟩ | ⟨k, hk, -, hwrite⟩
  · rw [hwrite]
    refine ⟨near, buffer, h.withSocket near, ?_⟩
    rcases hresult with rfl | ⟨rfl, -⟩ <;> exact .idle rfl rfl rfl (by simp [overflow])
  · rw [hwrite]
    refine ⟨_, _, h.withSocket _, ?_, ?_, ?_, id, ?_⟩
    · simp [given]
    · simp [received, Link.flip]
    · simp [sent, Link.flip]
    · simp [sent, Link.flip, overflow]

theorem Post.Undecided.exchanges_peerRead (h : post.Undecided near buffer) :
    post.Exchanges near buffer .peerRead := by
  have hact : post.act .peerRead =
    (((post.atPeer Link.readAll).1.map fun p => Answer.available p.1 p.2).getD .nothing, none,
      (post.atPeer Link.readAll).2) := rfl
  unfold Exchanges
  rw [hact, h.atPeer]
  refine ⟨_, _, h.withSocket _, ?_, ?_, ?_, id, ?_⟩
  · simp [given]
  · simp [received, Link.readAll, Link.flip]
  · simp [sent, Link.readAll, Link.flip]
  · simp [sent, Link.readAll, Link.flip, overflow]

theorem Post.Undecided.exchanges_peerClose (h : post.Undecided near buffer) :
    post.Exchanges near buffer .peerClose := by
  have hact : post.act .peerClose =
    (.nothing, none, (post.atPeer fun far => ((), far.drop)).2) := rfl
  unfold Exchanges
  rw [hact, h.atPeer]
  refine ⟨_, _, h.withSocket _, ?_, ?_, ?_, id, ?_⟩
  · simp [given]
  · simp [received, Link.drop, Link.flip]
  · simp [sent, Link.drop, Link.flip]
  · simp [sent, Link.drop, Link.flip, overflow]

/-- What the library writes, flushes or shuts down goes nowhere. -/
theorem Post.Undecided.exchanges_deed (h : post.Undecided near buffer) (deed : Visit.Deed) :
    post.Exchanges near buffer deed.toAction := by
  have hopen : post.intercept.phase ≠ .passthrough := by
    rcases h.early with he | he <;> simp [he]
  cases deed with
  | read n => exact h.exchanges_read n
  | peerWrite bs => exact h.exchanges_peerWrite bs
  | peerRead => exact h.exchanges_peerRead
  | peerClose => exact h.exchanges_peerClose
  | write bs =>
    exact h.exchanges_idle (act_write_of_open hopen bs) rfl rfl rfl (by simp [overflow])
  | flush => exact h.exchanges_idle (act_flush_of_open hopen) rfl rfl rfl (by simp [overflow])
  | shutdown => exact h.exchanges_idle (act_shutdown_of_open hopen) rfl rfl rfl (by simp [overflow])

end Steps

theorem Exchange.refl (near : Link) (buffer : Buffer) : Exchange near buffer [] near buffer :=
  ⟨by simp [Log.bytes], by simp [Log.bytes], by simp [Log.bytes], id,
    by simp [Log.bytes, Log.overflows]⟩

theorem Exchange.trans {near near' near'' : Link} {buffer buffer' buffer'' : Buffer}
    {before after : Log} (h : Exchange near buffer before near' buffer')
    (h' : Exchange near' buffer' after near'' buffer'') :
    Exchange near buffer (before ++ after) near'' buffer'' := by
  refine ⟨?_, ?_, ?_, fun hbound => h'.bounded (h.bounded hbound), ?_⟩
  · rw [h'.captured, h.captured, Log.bytes_append, List.append_assoc]
  · rw [Log.bytes_append, List.append_assoc, h'.silent, h.silent]
  · intro hnone
    rw [Log.overflows_append, Nat.add_eq_zero_iff] at hnone
    rw [h'.kept hnone.2, h.kept hnone.1, Log.bytes_append, List.append_assoc _ (before.bytes sent)]
  · intro hbound
    have hbefore := h.lost hbound
    have hafter := h'.lost (h.bounded hbound)
    simp only [List.length_append, Log.bytes_append, Log.overflows_append] at hbefore hafter ⊢
    omega

/-- Whatever is done while the decision is open leaves it open. -/
theorem Post.Undecided.run {post : Post} {near : Link} {buffer : Buffer}
    (h : post.Undecided near buffer) (deeds : List Visit.Deed) :
    ∃ near' buffer', (post.run (deeds.map Visit.Deed.toAction)).2.Undecided near' buffer' ∧
      Exchange near buffer (post.run (deeds.map Visit.Deed.toAction)).1 near' buffer' := by
  induction deeds generalizing post near buffer with
  | nil => exact ⟨near, buffer, h, .refl near buffer⟩
  | cons deed rest ih =>
    obtain ⟨near₁, buffer₁, hopen₁, hstep⟩ := h.exchanges_deed deed
    obtain ⟨near₂, buffer₂, hopen₂, hrest⟩ := ih hopen₁
    exact ⟨near₂, buffer₂, hopen₂, hstep.trans hrest⟩

theorem stir_eq_run (post : Post) (deeds : List Visit.Deed) :
    Visit.stir post deeds = (post.run (deeds.map Visit.Deed.toAction)).2 := by
  induction deeds generalizing post with
  | nil => rfl
  | cons deed rest ih => exact ih _

/-- A connection whose captured bytes can be shown, and whose socket can be taken away then. -/
structure Post.Inspected (post : Post) (near : Link) (capture : Buffer) : Prop where
  shown : (post.act .inspect).1 = .shown (some capture.bytes)
  intercept : (post.act .inspect).2.2.intercept = ⟨some near, .helloCaptured, some capture⟩

theorem Post.Undecided.inspected {post : Post} {near : Link} {buffer : Buffer}
    (h : post.Undecided near buffer) : post.Inspected near buffer := by
  have hopen : ¬ Phase.helloCaptured.rank ≤ post.intercept.phase.rank := by
    rcases h.early with he | he <;> rw [he] <;> decide
  have hinspect : post.intercept.inspect =
      (some buffer.bytes, { post.intercept with phase := .helloCaptured }) := by
    unfold Intercept.inspect
    rw [if_neg hopen]
    simp only [h.capture]
    rfl
  have hact : post.act .inspect = (.shown post.intercept.inspect.1, none,
    { post with intercept := post.intercept.inspect.2 }) := rfl
  rw [hinspect] at hact
  refine ⟨by rw [hact], ?_⟩
  rw [hact, ← h.socket, ← h.capture]

theorem Post.Inspected.detachable {post : Post} {near : Link} {capture : Buffer}
    (h : post.Inspected near capture) :
    (post.act .inspect).2.2.intercept.detach.1 = some ⟨near, some capture⟩ := by
  rw [h.intercept]
  rfl

end Gatehouse.Capture
