import Gatehouse.Hello.Basic

namespace Gatehouse.Hello

def handshakeContent : UInt8 := 22

def maxPayload : Nat := 16384

/-- Takes one handshake record off the front: its payload, and what follows. -/
def takeRecord : Bytes → Except Error (Bytes × Bytes)
  | content :: _ :: _ :: hi :: lo :: rest =>
    let size := Bytes.be16 hi lo
    if content ≠ handshakeContent then .error (.notHandshake content)
    else if maxPayload < size then .error (.recordTooLarge size)
    else if rest.length < size then .error .incomplete
    else .ok (rest.take size, rest.drop size)
  | _ => .error .incomplete

theorem takeRecord_length {raw payload rest : Bytes} (h : takeRecord raw = .ok (payload, rest)) :
    rest.length < raw.length := by
  unfold takeRecord at h
  split at h
  · simp only at h
    split at h
    · simp at h
    · split at h
      · simp at h
      · split at h
        · simp at h
        · simp only [Except.ok.injEq, Prod.mk.injEq] at h
          obtain ⟨-, rfl⟩ := h
          simp only [List.length_drop, List.length_cons]
          omega
  · simp at h

/-- The size a message announces, its four header bytes included; unknown before those are there. -/
def announced? : Bytes → Option Nat
  | _ :: a :: b :: c :: _ => some (4 + Bytes.be24 a b c)
  | _ => none

/-- Joins record payloads behind `message` until it is as long as it announces. Gives the message
and the bytes behind its last record, which may hold nothing behind it. -/
def reassemble (message raw : Bytes) : Except Error (Bytes × Bytes) :=
  match _h : takeRecord raw with
  | .error e => .error e
  | .ok (payload, rest) =>
    let message := message ++ payload
    match announced? message with
    | none => reassemble message rest
    | some needed =>
      if message.length < needed then reassemble message rest
      else if needed < message.length then .error (.trailing .handshakeRecord)
      else .ok (message, rest)
termination_by raw.length
decreasing_by all_goals exact takeRecord_length _h

end Gatehouse.Hello
