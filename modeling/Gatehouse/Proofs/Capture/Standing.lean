import Gatehouse.Proofs.Capture.Undecided

namespace Gatehouse.Capture
open Gatehouse.Stream

/-- An interception without its bytes: how far it has come, and whether socket and buffer are still
there. -/
structure Outline where
  phase : Phase
  socket : Bool
  capture : Bool

/-- A connection without its bytes: its interception, and who holds a half of it. -/
structure Standing extends Outline where
  library : Bool
  task : Bool

def Intercept.outline (connection : Intercept) : Outline :=
  ⟨connection.phase, connection.socket.isSome, connection.capture.isSome⟩

def Post.standing (post : Post) : Standing :=
  ⟨post.intercept.outline, post.libraryHolds, post.taskHolds⟩

namespace Outline

def read (o : Outline) : Outline :=
  if o.socket then { o with phase := o.phase.advance .buffering } else o

def inspect (o : Outline) : Outline := { o with phase := o.phase.advance .helloCaptured }

def passThrough (o : Outline) : Outline := { o with phase := .passthrough, capture := false }

/-- Without a socket there is nothing to take the buffer along with. -/
def detach (o : Outline) : Outline := ⟨.passthrough, false, o.capture && !o.socket⟩

end Outline

namespace Standing

/-- Socket and buffer go with the last half. -/
def settle (s : Standing) : Standing :=
  if s.library || s.task then s else { s with socket := false, capture := false }

/-- How a connection stands after an action. -/
def act (s : Standing) : Action → Standing
  | .read _ => { s with toOutline := s.toOutline.read }
  | .inspect => { s with toOutline := s.toOutline.inspect }
  | .passThrough => { s with toOutline := s.toOutline.passThrough }
  | .detach => { s with toOutline := s.toOutline.detach }
  | .dropLibraryHalf => { s with library := false }.settle
  | .dropTaskHalf => { s with task := false }.settle
  | _ => s

end Standing

namespace Intercept
variable (connection : Intercept)

theorem outline_keep (fresh : Bytes) : (connection.keep fresh).2.outline = connection.outline := by
  unfold keep
  split
  next hphase hcapture =>
    split
    · rfl
    · simp [outline, hcapture]
  next => rfl

theorem outline_read (n : Nat) : (connection.read n).2.outline = connection.outline.read := by
  unfold read
  cases hsocket : connection.socket with
  | none => simp [outline, Outline.read, hsocket]
  | some socket =>
    have hread : connection.outline.read =
        { connection with phase := connection.phase.advance .buffering }.outline := by
      simp [outline, Outline.read, hsocket]
    rw [hread]
    simp only
    rcases socket.read n with ⟨result, socket'⟩
    cases result with
    | waiting => simp [outline, hsocket]
    | done fresh => rw [outline_keep]; simp [outline, hsocket]
    | failed fault => simp [outline, hsocket]

theorem outline_write (bs : Bytes) : (connection.write bs).2.outline = connection.outline := by
  unfold write
  split
  · rfl
  · split
    next => rfl
    next hsocket => simp [outline, hsocket]

theorem outline_flush : connection.flush.2.outline = connection.outline := by
  unfold flush
  split
  · rfl
  · split
    next => rfl
    next hsocket => simp [outline, hsocket]

theorem outline_shutdown : connection.shutdown.2.outline = connection.outline := by
  unfold shutdown
  split
  · rfl
  · simp [outline]

theorem outline_inspect : connection.inspect.2.outline = connection.outline.inspect := by
  unfold inspect
  by_cases hseen : Phase.helloCaptured.rank ≤ connection.phase.rank
  · have hstay : connection.phase.advance .helloCaptured = connection.phase :=
      if_neg (Nat.not_lt.mpr hseen)
    rw [if_pos hseen]
    simp [outline, Outline.inspect, hstay]
  · have hmove : connection.phase.advance .helloCaptured = .helloCaptured :=
      if_pos (Nat.lt_of_not_le hseen)
    rw [if_neg hseen]
    simp [outline, Outline.inspect, hmove]

theorem outline_detach : connection.detach.2.outline = connection.outline.detach := by
  unfold detach
  cases hsocket : connection.socket with
  | none => simp [outline, Outline.detach, hsocket]
  | some socket => simp [outline, Outline.detach, hsocket]

end Intercept

namespace Post
variable (post : Post)

theorem standing_atPeer {α : Type} (act : Link → α × Link) :
    (post.atPeer act).2.standing = post.standing := by
  unfold atPeer
  cases hsocket : post.intercept.socket with
  | some near => simp [standing, Intercept.outline, hsocket]
  | none =>
    cases post.socket with
    | some near => rfl
    | none => cases post.abandoned <;> rfl

theorem standing_onSocket {α : Type} (act : Link → α × Link) :
    (post.onSocket act).2.standing = post.standing := by
  unfold onSocket
  cases post.socket <;> rfl

theorem standing_dropSocket : post.dropSocket.standing = post.standing := by
  unfold dropSocket
  cases post.socket <;> rfl

theorem standing_settle : post.settle.2.standing = post.standing.settle := by
  unfold settle Standing.settle
  by_cases hheld : (post.libraryHolds || post.taskHolds) = true
  · have hstanding : (post.standing.library || post.standing.task) = true := hheld
    rw [if_pos hheld, if_pos hstanding]
  · have hstanding : ¬ (post.standing.library || post.standing.task) = true := hheld
    rw [if_neg hheld, if_neg hstanding]
    rfl

theorem standing_act_detach :
    (post.act .detach).2.2.standing = ⟨post.intercept.detach.2.outline, post.libraryHolds,
      post.taskHolds⟩ := by
  simp only [act]
  rcases post.intercept.detach with ⟨_ | detached, rest⟩ <;> rfl

/-- To know how a connection will stand, nothing needs to be known but how it stands. -/
theorem standing_act (action : Action) :
    (post.act action).2.2.standing = post.standing.act action := by
  cases action with
  | peerWrite bs => exact post.standing_atPeer fun far => far.write bs
  | peerRead => exact post.standing_atPeer Link.readAll
  | peerClose => exact post.standing_atPeer fun far => ((), far.drop)
  | read n => exact congrArg (Standing.mk · _ _) (post.intercept.outline_read n)
  | write bs => exact congrArg (Standing.mk · _ _) (post.intercept.outline_write bs)
  | flush => exact congrArg (Standing.mk · _ _) post.intercept.outline_flush
  | shutdown => exact congrArg (Standing.mk · _ _) post.intercept.outline_shutdown
  | inspect => exact congrArg (Standing.mk · _ _) post.intercept.outline_inspect
  | passThrough => rfl
  | detach =>
    rw [standing_act_detach, Intercept.outline_detach]
    rfl
  | replay =>
    simp only [act]
    cases post.hello <;> rfl
  | dropHello => rfl
  | socketRead n => exact post.standing_onSocket fun near => near.read n
  | socketWrite bs => exact post.standing_onSocket fun near => near.write bs
  | socketDrop => exact post.standing_dropSocket
  | dropLibraryHalf => exact standing_settle _
  | dropTaskHalf => exact standing_settle _

end Post

/-- Both halves were given up. -/
def BothDropped (past : List Action) : Prop := .dropLibraryHalf ∈ past ∧ .dropTaskHalf ∈ past

theorem BothDropped.concat {past : List Action} (h : BothDropped past) (action : Action) :
    BothDropped (past ++ [action]) :=
  ⟨List.mem_append_left _ h.1, List.mem_append_left _ h.2⟩

/-- How a connection stands after what was done on it. Each part of it hangs on whether a few
actions were among them, and not on their order. -/
structure Standing.Tracks (s : Standing) (past : List Action) : Prop where
  library : s.library = false ↔ .dropLibraryHalf ∈ past
  task : s.task = false ↔ .dropTaskHalf ∈ past
  decided : s.phase = .passthrough ↔ .passThrough ∈ past ∨ .detach ∈ past
  unseen : s.phase.rank < 2 ↔ .inspect ∉ past ∧ .passThrough ∉ past ∧ .detach ∉ past
  socket : s.socket = false ↔ .detach ∈ past ∨ BothDropped past
  capture : s.capture = false ↔ .passThrough ∈ past ∨ .detach ∈ past ∨ BothDropped past

namespace Standing.Tracks
variable {s : Standing} {past : List Action}

theorem idle (h : s.Tracks past) {action : Action} (hinspect : action ≠ .inspect)
    (hpass : action ≠ .passThrough) (hdetach : action ≠ .detach)
    (hlibrary : action ≠ .dropLibraryHalf) (htask : action ≠ .dropTaskHalf) :
    s.Tracks (past ++ [action]) := by
  have hmem (marker : Action) (hne : action ≠ marker) :
      marker ∈ past ++ [action] ↔ marker ∈ past := by
    simp [hne.symm]
  refine ⟨?_, ?_, ?_, ?_, ?_, ?_⟩
  · rw [hmem _ hlibrary, h.library]
  · rw [hmem _ htask, h.task]
  · rw [hmem _ hpass, hmem _ hdetach, h.decided]
  · rw [hmem _ hinspect, hmem _ hpass, hmem _ hdetach, h.unseen]
  · rw [BothDropped, hmem _ hdetach, hmem _ hlibrary, hmem _ htask, h.socket, BothDropped]
  · rw [BothDropped, hmem _ hpass, hmem _ hdetach, hmem _ hlibrary, hmem _ htask, h.capture,
      BothDropped]

theorem read (h : s.Tracks past) (n : Nat) : (s.act (.read n)).Tracks (past ++ [.read n]) := by
  have hidle : s.Tracks (past ++ [.read n]) :=
    h.idle (by simp) (by simp) (by simp) (by simp) (by simp)
  by_cases hsocket : s.socket = true
  · have hact : s.act (.read n) = { s with phase := s.phase.advance .buffering } := by
      simp [act, Outline.read, hsocket]
    have hdecided : s.phase.advance .buffering = .passthrough ↔ s.phase = .passthrough := by
      cases s.phase <;> decide
    have hunseen : (s.phase.advance .buffering).rank < 2 ↔ s.phase.rank < 2 := by
      cases s.phase <;> decide
    rw [hact]
    exact ⟨hidle.library, hidle.task, hdecided.trans hidle.decided, hunseen.trans hidle.unseen,
      hidle.socket, hidle.capture⟩
  · have hact : s.act (.read n) = s := by
      simp [act, Outline.read, hsocket]
    rw [hact]
    exact hidle

theorem inspect (h : s.Tracks past) : (s.act .inspect).Tracks (past ++ [.inspect]) := by
  have hdecided : s.phase.advance .helloCaptured = .passthrough ↔ s.phase = .passthrough := by
    cases s.phase <;> decide
  have hseen : ¬ (s.phase.advance .helloCaptured).rank < 2 := by
    cases s.phase <;> decide
  refine ⟨?_, ?_, ?_, ?_, ?_, ?_⟩
  · simpa [act] using h.library
  · simpa [act] using h.task
  · simpa [act, Outline.inspect, hdecided] using h.decided
  · simpa [act, Outline.inspect] using hseen
  · simpa [act, Outline.inspect, BothDropped] using h.socket
  · simpa [act, Outline.inspect, BothDropped] using h.capture

theorem passThrough (h : s.Tracks past) :
    (s.act .passThrough).Tracks (past ++ [.passThrough]) := by
  refine ⟨?_, ?_, ?_, ?_, ?_, ?_⟩
  · simpa [act] using h.library
  · simpa [act] using h.task
  · simp [act, Outline.passThrough]
  · simp [act, Outline.passThrough, Phase.rank]
  · simpa [act, Outline.passThrough, BothDropped] using h.socket
  · simp [act, Outline.passThrough]

theorem detach (h : s.Tracks past) : (s.act .detach).Tracks (past ++ [.detach]) := by
  have hcapture : (s.capture && !s.socket) = false := by
    cases hsocket : s.socket with
    | true => simp
    | false =>
      -- Whatever took the socket away took the buffer as well.
      have hgone : s.capture = false := h.capture.mpr (.inr (h.socket.mp hsocket))
      simp [hgone]
  refine ⟨?_, ?_, ?_, ?_, ?_, ?_⟩
  · simpa [act] using h.library
  · simpa [act] using h.task
  · simp [act, Outline.detach]
  · simp [act, Outline.detach, Phase.rank]
  · simp [act, Outline.detach]
  · simpa [act, Outline.detach] using hcapture

/-- When a half is given up, socket and buffer go if the other one was given up before. -/
theorem settle {s : Standing} {past : List Action}
    (library : s.library = false ↔ .dropLibraryHalf ∈ past)
    (task : s.task = false ↔ .dropTaskHalf ∈ past)
    (decided : s.phase = .passthrough ↔ .passThrough ∈ past ∨ .detach ∈ past)
    (unseen : s.phase.rank < 2 ↔ .inspect ∉ past ∧ .passThrough ∉ past ∧ .detach ∉ past)
    (socket : ¬ BothDropped past → (s.socket = false ↔ .detach ∈ past))
    (capture : ¬ BothDropped past → (s.capture = false ↔ .passThrough ∈ past ∨ .detach ∈ past)) :
    s.settle.Tracks past := by
  unfold Standing.settle
  by_cases hheld : (s.library || s.task) = true
  · have hone : ¬ BothDropped past := by
      rintro ⟨hlibrary, htask⟩
      rw [library.mpr hlibrary, task.mpr htask] at hheld
      contradiction
    rw [if_pos hheld]
    exact ⟨library, task, decided, unseen, by simp [socket hone, hone],
      by simp [capture hone, hone]⟩
  · have hboth : BothDropped past := by
      rw [Bool.not_eq_true, Bool.or_eq_false_iff] at hheld
      exact ⟨library.mp hheld.1, task.mp hheld.2⟩
    rw [if_neg hheld]
    exact ⟨library, task, decided, unseen, by simp [hboth], by simp [hboth]⟩

theorem dropLibraryHalf (h : s.Tracks past) :
    (s.act .dropLibraryHalf).Tracks (past ++ [.dropLibraryHalf]) := by
  refine settle ?_ ?_ ?_ ?_ ?_ ?_
  · simp
  · simpa using h.task
  · simpa using h.decided
  · simpa using h.unseen
  · intro hnot
    have hbefore : ¬ BothDropped past := fun hboth => hnot (hboth.concat _)
    simpa [hbefore] using h.socket
  · intro hnot
    have hbefore : ¬ BothDropped past := fun hboth => hnot (hboth.concat _)
    simpa [hbefore] using h.capture

theorem dropTaskHalf (h : s.Tracks past) :
    (s.act .dropTaskHalf).Tracks (past ++ [.dropTaskHalf]) := by
  refine settle ?_ ?_ ?_ ?_ ?_ ?_
  · simpa using h.library
  · simp
  · simpa using h.decided
  · simpa using h.unseen
  · intro hnot
    have hbefore : ¬ BothDropped past := fun hboth => hnot (hboth.concat _)
    simpa [hbefore] using h.socket
  · intro hnot
    have hbefore : ¬ BothDropped past := fun hboth => hnot (hboth.concat _)
    simpa [hbefore] using h.capture

theorem act (h : s.Tracks past) (action : Action) :
    (s.act action).Tracks (past ++ [action]) := by
  cases action with
  | read n => exact h.read n
  | inspect => exact h.inspect
  | passThrough => exact h.passThrough
  | detach => exact h.detach
  | dropLibraryHalf => exact h.dropLibraryHalf
  | dropTaskHalf => exact h.dropTaskHalf
  | peerWrite | peerRead | peerClose | write | flush | shutdown | replay | dropHello | socketRead |
    socketWrite | socketDrop => exact h.idle (by simp) (by simp) (by simp) (by simp) (by simp)

end Standing.Tracks

theorem Post.tracks_new (socket : Link) (buffer : Buffer) :
    (Post.new socket buffer).standing.Tracks [] := by
  constructor <;> simp [new, standing, Intercept.outline, Intercept.new, BothDropped, Phase.rank]

theorem Post.tracks_run {post : Post} {past : List Action} (h : post.standing.Tracks past)
    (actions : List Action) : (post.run actions).2.standing.Tracks (past ++ actions) := by
  induction actions generalizing post past with
  | nil => simpa [run] using h
  | cons action rest ih =>
    have hnext := h.act action
    rw [← standing_act] at hnext
    have hrest := ih hnext
    rw [List.append_assoc] at hrest
    exact hrest

end Gatehouse.Capture
