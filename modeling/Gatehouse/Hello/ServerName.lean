import Gatehouse.Hello.Fields

namespace Gatehouse.Hello

def hostNameType : UInt8 := 0

def takeName? : Bytes → Option (UInt8 × Bytes × Bytes)
  | kind :: hi :: lo :: rest =>
    let size := Bytes.be16 hi lo
    if size ≤ rest.length then some (kind, rest.take size, rest.drop size) else none
  | _ => none

theorem takeName?_length {bs name rest : Bytes} {kind : UInt8}
    (h : takeName? bs = some (kind, name, rest)) : rest.length < bs.length := by
  unfold takeName? at h
  split at h
  · simp only at h
    split at h
    · simp only [Option.some.injEq, Prod.mk.injEq] at h
      obtain ⟨-, -, rfl⟩ := h
      simp only [List.length_drop, List.length_cons]
      omega
    · simp at h
  · simp at h

/-- The first host name of a list. What follows it is not looked at. -/
def hostName? (names : Bytes) : Option String :=
  match _h : takeName? names with
  | none => none
  | some (kind, name, rest) =>
    if kind = hostNameType then Bytes.toString? name else hostName? rest
termination_by names.length
decreasing_by exact takeName?_length _h

def nameList? : Bytes → Option Bytes
  | hi :: lo :: rest =>
    let size := Bytes.be16 hi lo
    if size ≤ rest.length then some (rest.take size) else none
  | _ => none

/-- The host name the client asks for. A malformed extension asks for none. -/
def ClientHello.serverName? (hello : ClientHello) : Option String :=
  (hello.extension? serverNameKind).bind fun data => (nameList? data).bind hostName?

end Gatehouse.Hello
