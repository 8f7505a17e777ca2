import Gatehouse.Capture.Intercept

namespace Gatehouse.Capture

open Gatehouse.Stream

/-- A connection at the desk. The library holds one half of the interception, the accept task the
other; what is detached is kept here until it is given up. -/
structure Post where
  intercept : Intercept
  libraryHolds : Bool
  taskHolds : Bool
  /-- The socket after it was detached. -/
  socket : Option Link
  /-- The captured bytes after they were detached; a buffer is on loan with them or is not. -/
  hello : Option (Option Buffer)
  /-- The socket after its near end was given up. The peer may still hold the far end. -/
  abandoned : Option Link
deriving Repr, DecidableEq

structure Desk where
  pool : Pool
  /-- The room of new connections in either direction. -/
  capacity : Nat
  posts : List Post
deriving Repr, DecidableEq

namespace Post

def new (socket : Link) (buffer : Buffer) : Post :=
  ⟨.new socket buffer, true, true, none, none, none⟩

/-- The phase, as long as anyone can ask for it. -/
def phase? (post : Post) : Option Phase :=
  if post.libraryHolds || post.taskHolds then some post.intercept.phase else none

/-- The peer does something at the far end, wherever the near end is by now. -/
def atPeer {α : Type} (post : Post) (act : Link → α × Link) : Option α × Post :=
  let far (near : Link) : α × Link := let (a, link) := act near.flip; (a, link.flip)
  match post.intercept.socket, post.socket, post.abandoned with
  | some near, _, _ =>
    let (a, near) := far near
    (some a, { post with intercept := { post.intercept with socket := some near } })
  | none, some near, _ => let (a, near) := far near; (some a, { post with socket := some near })
  | none, none, some near =>
    let (a, near) := far near
    (some a, { post with abandoned := some near })
  | none, none, none => (none, post)

def onSocket {α : Type} (post : Post) (act : Link → α × Link) : Option α × Post :=
  match post.socket with
  | some near => let (a, near) := act near; (some a, { post with socket := some near })
  | none => (none, post)

def dropSocket (post : Post) : Post :=
  match post.socket with
  | some near => { post with socket := none, abandoned := some near.drop }
  | none => post

/-- Once nobody holds the interception, its socket closes and its buffer is free. -/
def settle (post : Post) : Option Buffer × Post :=
  if post.libraryHolds || post.taskHolds then (none, post)
  else
    let abandoned := match post.intercept.socket with
      | some near => some near.drop
      | none => post.abandoned
    (post.intercept.capture,
      { post with
        intercept := { post.intercept with socket := none, capture := none }
        abandoned := abandoned })

end Post

inductive Action
  | peerWrite (bs : Bytes)
  | peerRead
  | peerClose
  | read (n : Nat)
  | write (bs : Bytes)
  | flush
  | shutdown
  | inspect
  | passThrough
  | detach
  | replay
  | dropHello
  | socketRead (n : Nat)
  | socketWrite (bs : Bytes)
  | socketDrop
  | dropLibraryHalf
  | dropTaskHalf
deriving Repr, DecidableEq

inductive Answer
  | nothing
  | bytesRead (result : Attempt Bytes)
  | bytesWritten (result : Attempt Nat)
  | finished (result : Attempt Unit)
  | available (bs : Bytes) (ended : Bool)
  /-- The captured bytes as they were shown; none if they had been shown before. -/
  | shown (captured : Option Bytes)
  /-- The captured bytes that came with the socket; none if the socket was gone. -/
  | detached (captured : Option Bytes)
  | replayed (bs : Bytes)
deriving Repr, DecidableEq

/-- What an action does to its connection: the answer, the buffer that is free afterwards, and the
connection. -/
def Post.act (post : Post) : Action → Answer × Option Buffer × Post
  | .peerWrite bs =>
    let (r, post) := post.atPeer fun far => far.write bs
    ((r.map .bytesWritten).getD .nothing, none, post)
  | .peerRead =>
    let (r, post) := post.atPeer Link.readAll
    ((r.map fun p => .available p.1 p.2).getD .nothing, none, post)
  | .peerClose =>
    let (_, post) := post.atPeer fun far => ((), far.drop)
    (.nothing, none, post)
  | .read n =>
    let (r, i) := post.intercept.read n
    (.bytesRead r, none, { post with intercept := i })
  | .write bs =>
    let (r, i) := post.intercept.write bs
    (.bytesWritten r, none, { post with intercept := i })
  | .flush =>
    let (r, i) := post.intercept.flush
    (.finished r, none, { post with intercept := i })
  | .shutdown =>
    let (r, i) := post.intercept.shutdown
    (.finished r, none, { post with intercept := i })
  | .inspect =>
    let (r, i) := post.intercept.inspect
    (.shown r, none, { post with intercept := i })
  | .passThrough =>
    let (b, i) := post.intercept.passThrough
    (.nothing, b, { post with intercept := i })
  | .detach =>
    match post.intercept.detach with
    | (some d, i) =>
      (.detached (some (captured d.capture)), none,
        { post with intercept := i, socket := some d.socket, hello := some d.capture })
    | (none, i) => (.detached none, none, { post with intercept := i })
  | .replay =>
    match post.hello with
    | some capture => (.replayed (captured capture), capture, { post with hello := none })
    | none => (.nothing, none, post)
  | .dropHello => (.nothing, post.hello.join, { post with hello := none })
  | .socketRead n =>
    let (r, post) := post.onSocket fun near => near.read n
    ((r.map .bytesRead).getD .nothing, none, post)
  | .socketWrite bs =>
    let (r, post) := post.onSocket fun near => near.write bs
    ((r.map .bytesWritten).getD .nothing, none, post)
  | .socketDrop => (.nothing, none, post.dropSocket)
  | .dropLibraryHalf =>
    let (b, post) := { post with libraryHolds := false }.settle
    (.nothing, b, post)
  | .dropTaskHalf =>
    let (b, post) := { post with taskHolds := false }.settle
    (.nothing, b, post)

namespace Desk

def start? (maxPooled capacity : Nat) : Option Desk :=
  (Pool.start? maxPooled).map (⟨·, capacity, []⟩)

/-- One more connection, with a buffer from the pool. -/
def accept (desk : Desk) : Desk :=
  let (buffer, pool) := desk.pool.acquire
  { desk with pool := pool, posts := desk.posts ++ [.new (.empty desk.capacity) buffer] }

def act (desk : Desk) (number : Nat) (action : Action) : Answer × Desk :=
  match desk.posts[number]? with
  | none => (.nothing, desk)
  | some post =>
    let (answer, freed, post) := post.act action
    (answer, { desk with pool := desk.pool.releaseAny freed, posts := desk.posts.set number post })

end Desk
end Gatehouse.Capture
