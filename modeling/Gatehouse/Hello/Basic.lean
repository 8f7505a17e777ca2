import Gatehouse.Bytes

namespace Gatehouse.Hello

inductive Part
  | handshakeType
  | handshakeLength
  | handshakeBody
  | clientVersion
  | random
  | sessionId
  | cipherSuites
  | compressionMethods
  | extensions
  | extensionType
  | extensionData
deriving Repr, DecidableEq

def Part.name : Part → String
  | .handshakeType => "handshake type"
  | .handshakeLength => "handshake length"
  | .handshakeBody => "handshake body"
  | .clientVersion => "client version"
  | .random => "random"
  | .sessionId => "session id"
  | .cipherSuites => "cipher suites"
  | .compressionMethods => "compression methods"
  | .extensions => "extensions"
  | .extensionType => "extension type"
  | .extensionData => "extension data"

inductive Enclosure
  | handshakeRecord
  | clientHello
deriving Repr, DecidableEq

def Enclosure.name : Enclosure → String
  | .handshakeRecord => "handshake record"
  | .clientHello => "ClientHello"

inductive Error
  | incomplete
  | notHandshake (contentType : UInt8)
  | notClientHello (messageType : UInt8)
  | recordTooLarge (size : Nat)
  | truncated (part : Part)
  | trailing (after : Enclosure)
  | oversized (part : Part)
deriving Repr, DecidableEq

def Error.message : Error → String
  | .incomplete => "record stream ends before the ClientHello is complete"
  | .notHandshake t => s!"record content type {t.toNat} is not handshake"
  | .notClientHello t => s!"handshake message type {t.toNat} is not ClientHello"
  | .recordTooLarge n => s!"record payload of {n} bytes exceeds the TLS limit"
  | .truncated p => s!"truncated {p.name}"
  | .trailing e => s!"unexpected trailing bytes in {e.name}"
  | .oversized p => s!"oversized {p.name}"

structure Extension where
  kind : UInt16
  data : Bytes
deriving Repr, DecidableEq

structure ClientHello where
  legacyVersion : UInt16
  random : Bytes
  sessionId : Bytes
  cipherSuites : List UInt16
  compressionMethods : Bytes
  extensions : List Extension
deriving Repr, DecidableEq

/-- The extension that names the host (RFC 6066). -/
def serverNameKind : UInt16 := 0

/-- The extension that carries the session ticket (RFC 5077). -/
def sessionTicketKind : UInt16 := 35

namespace ClientHello

def extension? (hello : ClientHello) (kind : UInt16) : Option Bytes :=
  (hello.extensions.find? fun x => x.kind == kind).map Extension.data

/-- The ticket extension is present, be it empty. -/
def offersTicket (hello : ClientHello) : Bool := (hello.extension? sessionTicketKind).isSome

/-- The ticket sent along; empty when none is. -/
def sessionTicket (hello : ClientHello) : Bytes := (hello.extension? sessionTicketKind).getD []

end ClientHello
end Gatehouse.Hello
