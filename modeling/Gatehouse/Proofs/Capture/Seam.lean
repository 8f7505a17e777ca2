import Gatehouse.Proofs.Capture.Undecided
import Gatehouse.Proofs.Reaction.Streams

namespace Gatehouse.Capture
open Gatehouse.Stream

/-- A connection that is rejected: the captured bytes are shown, and the socket is taken away. -/
def Post.rejected (post : Post) : Post := ((post.act .inspect).2.2.act .detach).2.2

theorem Post.Inspected.rejected {post : Post} {near : Link} {capture : Buffer}
    (h : post.Inspected near capture) :
    post.rejected.socket = some near ∧ post.rejected.hello = some (some capture) := by
  have hact (held : Post) (hdetach : held.intercept.detach.1 = some ⟨near, some capture⟩) :
      (held.act .detach).2.2.socket = some near ∧
        (held.act .detach).2.2.hello = some (some capture) := by
    have hsplit : held.intercept.detach =
        (some ⟨near, some capture⟩, held.intercept.detach.2) := by
      rw [← hdetach]
    simp only [Post.act]
    rw [hsplit]
    exact ⟨rfl, rfl⟩
  exact hact _ h.detachable

/-- The captured bytes and what is still unread are what the peer sent if and only if no read ran
into the limit of the capture. If none did, no reaction leaves a gap in what another site receives
of that stream. -/
theorem captured_append_unread_iff (socket : Link) (room : Nat) (deeds : List Visit.Deed) :
    ∃ log waiting near capture,
      (Post.new socket ⟨[], room⟩).run (deeds.map Visit.Deed.toAction) = (log, waiting) ∧
      waiting.rejected.socket = some near ∧ waiting.rejected.hello = some (some capture) ∧
      (capture.bytes ++ near.inbound.buffered = socket.inbound.buffered ++ log.bytes sent ↔
        log.overflows = 0) ∧
      (log.overflows = 0 → ∀ reaction pool metrics turns later last,
        (∀ turn ∈ turns, Execution.Turn.Fresh turn) →
        (Execution.start reaction near (some capture) pool metrics).play? turns =
          some (later, last) →
        Execution.receivedIn later .clientToSite <+: socket.inbound.buffered ++
          log.bytes sent ++ Execution.sentIn later .clientToSite) := by
  obtain ⟨near, capture, hopen, hexchange⟩ := (Post.undecided_new socket ⟨[], room⟩).run deeds
  have hrejected := hopen.inspected.rejected
  refine ⟨_, _, near, capture, rfl, hrejected.1, hrejected.2, ⟨?_, ?_⟩, ?_⟩
  · intro hseam
    have hlost := hexchange.lost (Nat.zero_le _)
    rw [hseam, List.nil_append] at hlost
    omega
  · exact hexchange.kept
  · intro hnone reaction pool metrics turns later last hfresh hplay
    have hbears : reaction.innermost.Bears .clientToSite := trivial
    have hprefix :=
      Execution.received_prefix reaction near (some capture) pool metrics hbears hfresh hplay
    have hseam := hexchange.kept hnone
    rw [List.nil_append] at hseam
    rw [← hseam]
    exact hprefix

/-- Bytes that come in one read and are more than is kept are gone. -/
theorem oversized_read_is_lost {bs : Bytes} (hlong : maxCapture < bs.length) {capacity : Nat}
    (hroom : bs.length ≤ capacity) :
    ∃ log waiting near capture,
      (Post.new (.empty capacity) .new).run [.peerWrite bs, .read bs.length] = (log, waiting) ∧
      log.bytes sent = bs ∧
      waiting.rejected.socket = some near ∧ waiting.rejected.hello = some (some capture) ∧
      capture.bytes ++ near.inbound.buffered = [] := by
  have hne : bs ≠ [] := by
    intro he
    subst he
    simp at hlong
  have hcapacity : capacity ≠ 0 := by
    intro he
    subst he
    exact hne (List.eq_nil_of_length_eq_zero (Nat.le_zero.mp hroom))
  have hwrite : (Link.empty capacity).flip.write bs =
      (.done bs.length, ⟨.empty capacity, ⟨capacity, bs, .flowing⟩⟩) := by
    simp [Link.write, Link.flip, Link.empty, Pipe.write, Pipe.empty, hcapacity,
      List.take_of_length_le hroom]
  have hsent : (Post.new (.empty capacity) .new).act (.peerWrite bs) =
      (.bytesWritten (.done bs.length), none,
        .new ⟨⟨capacity, bs, .flowing⟩, .empty capacity⟩ .new) := by
    rw [Post.act_peerWrite, (Post.undecided_new _ _).atPeer, hwrite]
    rfl
  have hgot : (⟨⟨capacity, bs, .flowing⟩, .empty capacity⟩ : Link).read bs.length =
      (.done bs, .empty capacity) := by
    simp [Link.read, Link.empty, Pipe.read, Pipe.empty, hne]
  have hread : (Intercept.new ⟨⟨capacity, bs, .flowing⟩, .empty capacity⟩ .new).read bs.length =
      (.failed .captureLimit, ⟨some (.empty capacity), .buffering, some .new⟩) := by
    simp only [Intercept.read, Intercept.new, hgot]
    exact if_pos (by simpa [Buffer.new] using hlong)
  have hlost : (Post.new ⟨⟨capacity, bs, .flowing⟩, .empty capacity⟩ .new).act (.read bs.length) =
      (overflow, none, { Post.new (.empty capacity) .new with
        intercept := ⟨some (.empty capacity), .buffering, some .new⟩ }) := by
    rw [Post.act_read, Post.new, hread]
    rfl
  have hrun : (Post.new (.empty capacity) .new).run [.peerWrite bs, .read bs.length] =
      ([(.peerWrite bs, .bytesWritten (.done bs.length)), (.read bs.length, overflow)],
        { Post.new (.empty capacity) .new with
          intercept := ⟨some (.empty capacity), .buffering, some .new⟩ }) := by
    simp only [Post.run, hsent, hlost]
  have hopen : Post.Undecided
      { Post.new (.empty capacity) .new with
        intercept := ⟨some (.empty capacity), .buffering, some .new⟩ } (.empty capacity) .new :=
    ⟨rfl, rfl, .inr rfl⟩
  have hrejected := hopen.inspected.rejected
  refine ⟨_, _, .empty capacity, .new, hrun, ?_, hrejected.1, hrejected.2, rfl⟩
  simp [Log.bytes, sent]

/-- One byte more than is kept, all zeros and read at once, is neither captured nor still to be
read. -/
theorem zeros_lost_at_limit :
    ∃ log waiting near capture,
      (Post.new (.empty 1048576) .new).run [.peerWrite (List.replicate 65537 0), .read 65537] =
        (log, waiting) ∧
      log.bytes sent = List.replicate 65537 0 ∧
      waiting.rejected.socket = some near ∧ waiting.rejected.hello = some (some capture) ∧
      capture.bytes ++ near.inbound.buffered ≠ log.bytes sent := by
  have hlength : (List.replicate 65537 (0 : UInt8)).length = 65537 := List.length_replicate
  generalize List.replicate 65537 (0 : UInt8) = zeros at hlength ⊢
  have hlong : maxCapture < zeros.length := by
    rw [hlength]
    decide
  have hroom : zeros.length ≤ 1048576 := by
    rw [hlength]
    decide
  obtain ⟨log, waiting, near, capture, hrun, hsent, hsocket, hhello, hgone⟩ :=
    oversized_read_is_lost hlong hroom
  rw [hlength] at hrun
  refine ⟨log, waiting, near, capture, hrun, hsent, hsocket, hhello, ?_⟩
  rw [hgone, hsent]
  intro he
  subst he
  simp at hlength

end Gatehouse.Capture
