import Gatehouse.Proofs.Reaction.Pumping

namespace Gatehouse
open Gatehouse.Stream

/-- Of some chunks, `put` is written, and `rest` is left of the last of them. Those written to their end
count. -/
inductive Written (chunks : List Bytes) (put : Bytes) : Nat → Bytes → Prop
  | all (put_eq : put = chunks.flatten) : Written chunks put put.length []
  | part {whole : List Bytes} {front rest : Bytes} (chunks_eq : chunks = whole ++ [front ++ rest])
      (put_eq : put = whole.flatten ++ front) (rest_ne : rest ≠ []) :
      Written chunks put whole.flatten.length rest

namespace Written
variable {chunks : List Bytes} {put rest : Bytes} {count : Nat}

theorem append_rest (h : Written chunks put count rest) : put ++ rest = chunks.flatten := by
  cases h with
  | all put_eq => rw [put_eq, List.append_nil]
  | part chunks_eq put_eq rest_ne => simp [chunks_eq, put_eq]

theorem count_le (h : Written chunks put count rest) : count ≤ put.length := by
  cases h with
  | all put_eq => exact Nat.le_refl _
  | part chunks_eq put_eq rest_ne => simp [put_eq]

theorem count_eq (h : Written chunks put count []) : count = put.length := by
  cases h with
  | all put_eq => rfl
  | part chunks_eq put_eq rest_ne => contradiction

theorem length_lt (h : Written chunks put count rest) {size : Nat} (hsize : 0 < size)
    (hshort : ∀ chunk ∈ chunks, chunk.length ≤ size) : put.length < count + size := by
  cases h with
  | all put_eq => omega
  | @part whole front rest chunks_eq put_eq rest_ne =>
    have hlast := hshort (front ++ rest) (by simp [chunks_eq])
    have hrest := List.length_pos_iff.mpr rest_ne
    rw [put_eq, List.length_append]
    rw [List.length_append] at hlast
    omega

/-- A chunk is read when nothing is left of those before it. -/
theorem take (h : Written chunks put count []) {chunk : Bytes} (hchunk : chunk ≠ []) :
    Written (chunks ++ [chunk]) put count chunk := by
  have hput : put = chunks.flatten := by simpa using h.append_rest
  have hpart : Written (chunks ++ [[] ++ chunk]) put chunks.flatten.length chunk :=
    .part rfl (by rw [hput, List.append_nil]) hchunk
  rwa [← hput, ← h.count_eq] at hpart

theorem add {front : Bytes} (h : Written chunks put count (front ++ rest)) (hrest : rest ≠ []) :
    Written chunks (put ++ front) count rest := by
  generalize hleft : front ++ rest = left at h
  cases h with
  | all put_eq => simp [hrest] at hleft
  | part chunks_eq put_eq rest_ne =>
    refine .part (by rw [chunks_eq, ← hleft, ← List.append_assoc]) ?_ hrest
    rw [put_eq, List.append_assoc]

theorem finish (h : Written chunks put count rest) :
    Written chunks (put ++ rest) (put ++ rest).length [] := .all h.append_rest

end Written

/-- The bytes that have left a pipe at the front. -/
def Stream.Pipe.lost (pipe pipe' : Pipe) : Bytes :=
  pipe.buffered.take (pipe.buffered.length - pipe'.buffered.length)

/-- The bytes that have come into a pipe at the end. -/
def Stream.Pipe.gained (pipe pipe' : Pipe) : Bytes := pipe'.buffered.drop pipe.buffered.length

theorem Stream.Pipe.lost_self (pipe : Pipe) : pipe.lost pipe = [] := by simp [lost]

theorem Stream.Pipe.gained_of_buffered {pipe pipe' : Pipe} (h : pipe'.buffered = pipe.buffered) :
    pipe.gained pipe' = [] := by simp [gained, h]

/-- The chunk that was read, if one was. -/
def chunkOf (bs : Bytes) : List Bytes := if bs = [] then [] else [bs]

/-- What is still to be written of the last chunk, or was given up. -/
def Pump.Phase.Owes (rest : Bytes) (counted written : Nat) : Pump.Phase → Prop
  | .writing held size => held = rest ∧ written + rest.length = counted + size
  | .ended .writeFailed => True
  | .reading | .ended .endOfStream | .ended .readFailed => rest = []

/-- A pump that has read some chunks and written some bytes of them counts what it should. -/
structure Pump.Accounts (pump : Pump) (chunks : List Bytes) (put rest : Bytes) : Prop where
  written : Written chunks put pump.counted rest
  owes : pump.phase.Owes rest pump.counted put.length
  accepted : pump.accepted = put.length
  short : ∀ chunk ∈ chunks, chunk.length ≤ chunkSize

namespace Pump
variable {pump pump' : Pump} {source source' sink sink' : Pipe} {chunks : List Bytes} {put rest : Bytes}

theorem accounts_start : start.Accounts [] [] [] :=
  ⟨.all rfl, rfl, rfl, fun _ h => by simp at h⟩

theorem Accounts.step (h : pump.Accounts chunks put rest)
    (hstep : pump.Stepped source sink pump' source' sink') :
    ∃ rest', pump'.Accounts (chunks ++ chunkOf (source.lost source')) (put ++ sink.gained sink')
      rest' := by
  obtain ⟨hwritten, howes, haccepted, hshort⟩ := h
  cases hstep with
  | @took chunk later phase some_bytes room buffered =>
    rw [phase] at howes
    obtain rfl : rest = [] := howes
    have hlost : source.lost { source with buffered := later } = chunk := by
      simp [Pipe.lost, buffered]
    rw [hlost, chunkOf, if_neg some_bytes, Pipe.gained_of_buffered rfl, List.append_nil]
    refine ⟨chunk, hwritten.take some_bytes, ⟨rfl, ?_⟩, haccepted, ?_⟩
    · rw [hwritten.count_eq]
    · intro c hc
      rcases List.mem_append.mp hc with hbefore | hlast
      · exact hshort c hbefore
      · rw [List.mem_singleton.mp hlast]
        exact room
  | @closed how phase by_reader =>
    rw [phase] at howes
    obtain rfl : rest = [] := howes
    rw [source.lost_self, Pipe.gained_of_buffered (by simp)]
    refine ⟨[], by simpa [chunkOf] using hwritten, ?_, by simpa using haccepted, by simpa [chunkOf]⟩
    cases how with
    | endOfStream => rfl
    | readFailed => rfl
    | writeFailed => contradiction
  | @put front rest' size phase more =>
    rw [phase] at howes
    obtain ⟨rfl, hsize⟩ := howes
    have hgained : sink.gained { sink with buffered := sink.buffered ++ front } = front := by
      simp [Pipe.gained]
    rw [source.lost_self, hgained]
    refine ⟨rest', by simpa [chunkOf] using hwritten.add more, ⟨rfl, ?_⟩, ?_, by simpa [chunkOf]⟩
    · simp only [List.length_append] at hsize ⊢
      omega
    · simp [haccepted]
  | @finished held size phase =>
    rw [phase] at howes
    obtain ⟨rfl, hsize⟩ := howes
    have hgained : sink.gained { sink with buffered := sink.buffered ++ held } = held := by
      simp [Pipe.gained]
    rw [source.lost_self, hgained]
    refine ⟨[], ?_, rfl, ?_, by simpa [chunkOf]⟩
    · have hall := hwritten.finish
      rw [List.length_append, hsize] at hall
      simpa [chunkOf] using hall
    · simp [haccepted]
  | failed phase =>
    rw [source.lost_self, Pipe.gained_of_buffered rfl]
    exact ⟨rest, by simpa [chunkOf] using hwritten, trivial, by simpa using haccepted, by simpa [chunkOf]⟩

end Pump

def RelayStats.along (stats : RelayStats) : Direction → Nat
  | .clientToSite => stats.clientToSite
  | .siteToClient => stats.siteToClient

namespace Relay
variable {relay relay' last : Relay} {moves : List Move} {log : List Passage} {direction : Direction}

/-- The chunk that a move has read in a direction. -/
def Passage.chunk (passage : Passage) (direction : Direction) : List Bytes :=
  if passage.move = .pump direction then
    chunkOf ((passage.before.way direction).source.lost (passage.after.way direction).source)
  else []

/-- The bytes that the writer of a direction has taken with a move. -/
def Passage.put (passage : Passage) (direction : Direction) : Bytes :=
  if passage.move = .pump direction then
    (passage.before.way direction).sink.gained (passage.after.way direction).sink
  else []

def chunksIn (log : List Passage) (direction : Direction) : List Bytes :=
  log.flatMap (·.chunk direction)

def putIn (log : List Passage) (direction : Direction) : Bytes := log.flatMap (·.put direction)

/-- The books of one direction. -/
def Accounts (relay : Relay) (direction : Direction) (chunks : List Bytes) (put : Bytes) : Prop :=
  ∃ rest, (relay.pump direction).Accounts chunks put rest

theorem pump_notice (relay : Relay) (direction : Direction) :
    relay.notice.pump direction = relay.pump direction := by
  rcases relay.notice_cases with ⟨-, hnotice⟩ | ⟨deadline, hnotice⟩ <;>
    rw [hnotice] <;> cases direction <;> rfl

theorem buffered_notice (relay : Relay) (direction : Direction) :
    (relay.notice.way direction).source.buffered = (relay.way direction).source.buffered ∧
      (relay.notice.way direction).sink.buffered = (relay.way direction).sink.buffered := by
  rcases relay.notice_cases with ⟨-, hnotice⟩ | ⟨deadline, hnotice⟩
  · rw [hnotice]
    cases direction <;> exact ⟨Pipe.buffered_finish _, Pipe.buffered_finish _⟩
  · rw [hnotice]
    cases direction <;> exact ⟨rfl, rfl⟩

theorem pump_act_of_ne {move : Move} {outcome : Outcome}
    (hact : relay.act? move = some (outcome, relay')) (hmove : move ≠ .pump direction) :
    relay'.pump direction = relay.pump direction := by
  cases move with
  | pump worker =>
    simp only [act?, Option.map_eq_some_iff, Prod.mk.injEq] at hact
    obtain ⟨_, hstep, -, rfl⟩ := hact
    obtain ⟨-, pump, source, sink, -, rfl⟩ := pumpStep?_eq_some_iff.mp hstep
    have hother : direction ≠ worker := fun he => hmove (he ▸ rfl)
    rw [pump_notice, pump_worked_ne _ _ _ _ hother]
  | expire =>
    simp only [act?, Option.map_eq_some_iff, Prod.mk.injEq] at hact
    obtain ⟨_, hstep, -, rfl⟩ := hact
    rw [(expire_cases hstep).2.2]
    cases direction <;> rfl
  | elapse time =>
    simp only [act?, Option.some.injEq, Prod.mk.injEq] at hact
    obtain ⟨-, rfl⟩ := hact
    cases direction <;> rfl
  | party who deed =>
    simp only [act?, Option.some.injEq] at hact
    obtain rfl : (relay.actParty who deed).2 = relay' := by rw [hact]
    cases who <;> cases direction <;> rfl

theorem Accounts.act {chunks : List Bytes} {put : Bytes} {move : Move} {outcome : Outcome}
    (h : relay.Accounts direction chunks put) (hact : relay.act? move = some (outcome, relay')) :
    relay'.Accounts direction (chunks ++ Passage.chunk ⟨move, relay, relay'⟩ direction)
      (put ++ Passage.put ⟨move, relay, relay'⟩ direction) := by
  by_cases hmove : move = .pump direction
  · subst hmove
    simp only [act?, Option.map_eq_some_iff, Prod.mk.injEq] at hact
    obtain ⟨_, hstep, -, rfl⟩ := hact
    obtain ⟨-, pump, source, sink, hpump, rfl⟩ := pumpStep?_eq_some_iff.mp hstep
    obtain ⟨rest, hbooks⟩ := h
    obtain ⟨hsource, hsink⟩ := (relay.worked pump source sink direction).buffered_notice direction
    have hnext := hbooks.step (Pump.stepped hpump)
    rw [way_worked] at hsource hsink
    rw [Accounts, pump_notice, pump_worked]
    simpa [Passage.chunk, Passage.put, Pipe.lost, Pipe.gained, hsource, hsink] using hnext
  · obtain ⟨rest, hbooks⟩ := h
    refine ⟨rest, ?_⟩
    rw [pump_act_of_ne hact hmove]
    simpa [Passage.chunk, Passage.put, hmove] using hbooks

theorem Accounts.run {chunks : List Bytes} {put : Bytes} (h : relay.Accounts direction chunks put)
    (hrun : relay.run? moves = some (log, last)) :
    last.Accounts direction (chunks ++ chunksIn log direction) (put ++ putIn log direction) := by
  induction moves generalizing relay chunks put log with
  | nil =>
    obtain ⟨rfl, rfl⟩ := Prod.mk.inj (Option.some.inj hrun)
    simpa [chunksIn, putIn] using h
  | cons move rest ih =>
    obtain ⟨outcome, next, later, hact, hrest, rfl⟩ := run?_cons.mp hrun
    simpa [chunksIn, putIn, List.append_assoc] using ih (h.act hact) hrest

theorem accounts_start (now : Nat) (client site : Link) (direction : Direction) :
    (start now client site).Accounts direction [] [] := by
  cases direction <;> exact ⟨[], Pump.accounts_start⟩

theorem along_stats (relay : Relay) (direction : Direction) :
    relay.stats.along direction = (relay.pump direction).counted := by cases direction <;> rfl

/-- At any moment, and when it has returned, a relay counts the chunks that are written to their end. The
writer has taken less than a chunk more, and no more at all once the reader has ended the direction. -/
theorem counts_of_run {now : Nat} {client site : Link}
    (hrun : (start now client site).run? moves = some (log, last)) (direction : Direction) :
    (∃ rest, Written (chunksIn log direction) (putIn log direction) (last.stats.along direction) rest) ∧
      last.stats.along direction ≤ (putIn log direction).length ∧
      (putIn log direction).length < last.stats.along direction + 16384 ∧
      ((last.pump direction).phase = .ended .endOfStream ∨
          (last.pump direction).phase = .ended .readFailed →
        last.stats.along direction = (putIn log direction).length) := by
  obtain ⟨rest, hbooks⟩ := (accounts_start now client site direction).run hrun
  rw [List.nil_append, List.nil_append] at hbooks
  rw [along_stats]
  refine ⟨⟨rest, hbooks.written⟩, hbooks.written.count_le, ?_, ?_⟩
  · exact hbooks.written.length_lt (by decide) hbooks.short
  · intro hended
    have howes := hbooks.owes
    have hrest : rest = [] := by
      rcases hended with hend | hend
      · rw [hend] at howes
        exact howes
      · rw [hend] at howes
        exact howes
    subst hrest
    exact hbooks.written.count_eq

end Relay
end Gatehouse
