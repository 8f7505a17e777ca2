import Gatehouse.Hello.Fields
import Gatehouse.Hello.Record

namespace Gatehouse.Hello

def clientHelloType : UInt8 := 1

def maxSessionId : Nat := 32

/-- Big-endian pairs in order; a single byte left over is dropped. -/
def pairs : Bytes → List UInt16
  | hi :: lo :: rest => UInt16.ofNat (Bytes.be16 hi lo) :: pairs rest
  | _ => []

def takeExtension (bs : Bytes) : Except Error (Extension × Bytes) := do
  let (kind, rest) ← number16 .extensionType bs
  let (data, rest) ← block16 .extensionData rest
  return (⟨UInt16.ofNat kind, data⟩, rest)

theorem takeExtension_length {bs rest : Bytes} {x : Extension}
    (h : takeExtension bs = .ok (x, rest)) : rest.length < bs.length := by
  unfold takeExtension at h
  cases hk : number16 .extensionType bs with
  | error e => simp [hk, bind, Except.bind] at h
  | ok p =>
    obtain ⟨kind, r⟩ := p
    obtain ⟨hi, lo, rfl, -⟩ := number16_eq_ok_iff.1 hk
    cases hd : block16 .extensionData r with
    | error e => simp [hk, hd, bind, Except.bind] at h
    | ok q =>
      obtain ⟨data, r'⟩ := q
      simp only [hk, hd, bind, Except.bind, pure, Except.pure, Except.ok.injEq, Prod.mk.injEq] at h
      obtain ⟨-, rfl⟩ := h
      have := block16_length hd
      simp only [List.length_cons]
      omega

/-- Splits a block into extensions, in wire order and with duplicates kept. -/
def extensions (bs : Bytes) : Except Error (List Extension) :=
  if bs.isEmpty then .ok []
  else
    match _h : takeExtension bs with
    | .error e => .error e
    | .ok (x, rest) => (x :: ·) <$> extensions rest
termination_by bs.length
decreasing_by exact takeExtension_length _h

/-- The extensions a body ends in: nothing at all, or one block with nothing behind it. -/
def finalExtensions (bs : Bytes) : Except Error (List Extension) :=
  if bs.isEmpty then .ok []
  else do
    let (block, rest) ← block16 .extensions bs
    let found ← extensions block
    if rest.isEmpty then return found else throw (.trailing .clientHello)

def parseBody (body : Bytes) : Except Error ClientHello := do
  let (version, rest) ← number16 .clientVersion body
  let (random, rest) ← take 32 .random rest
  let (sessionId, rest) ← block8 .sessionId rest
  if maxSessionId < sessionId.length then throw (.oversized .sessionId)
  let (suites, rest) ← block16 .cipherSuites rest
  if suites.length % 2 ≠ 0 then throw (.truncated .cipherSuites)
  let (methods, rest) ← block8 .compressionMethods rest
  let found ← finalExtensions rest
  return {
    legacyVersion := UInt16.ofNat version
    random := random
    sessionId := sessionId
    cipherSuites := pairs suites
    compressionMethods := methods
    extensions := found }

def parseMessage (message : Bytes) : Except Error ClientHello := do
  let (kind, rest) ← byte .handshakeType message
  if kind ≠ clientHelloType then throw (.notClientHello kind)
  let (size, rest) ← number24 .handshakeLength rest
  let (body, _) ← take size .handshakeBody rest
  parseBody body

/-- A hello together with the bytes it was found in. -/
structure Parsed where
  hello : ClientHello
  /-- The records that carried the hello, as they were sent. -/
  records : Bytes
  /-- Whatever was captured behind them. -/
  rest : Bytes
deriving Repr, DecidableEq

/-- Everything captured. -/
def Parsed.raw (p : Parsed) : Bytes := p.records ++ p.rest

def parse (raw : Bytes) : Except Error Parsed := do
  let (message, rest) ← reassemble [] raw
  let hello ← parseMessage message
  return ⟨hello, raw.take (raw.length - rest.length), rest⟩

end Gatehouse.Hello
