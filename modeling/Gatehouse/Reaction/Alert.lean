import Gatehouse.Bytes

namespace Gatehouse

inductive Alert
  | closeNotify
  | unexpectedMessage
  | handshakeFailure
  | decodeError
  | protocolVersion
  | internalError
  | unrecognizedName
deriving Repr, DecidableEq

namespace Alert

def all : List Alert :=
  [.closeNotify, .unexpectedMessage, .handshakeFailure, .decodeError, .protocolVersion,
    .internalError, .unrecognizedName]

/-- The number of an alert description (RFC 5246, section 7.2). -/
def code : Alert → UInt8
  | .closeNotify => 0
  | .unexpectedMessage => 10
  | .handshakeFailure => 40
  | .decodeError => 50
  | .protocolVersion => 70
  | .internalError => 80
  | .unrecognizedName => 112

def name : Alert → String
  | .closeNotify => "close_notify"
  | .unexpectedMessage => "unexpected_message"
  | .handshakeFailure => "handshake_failure"
  | .decodeError => "decode_error"
  | .protocolVersion => "protocol_version"
  | .internalError => "internal_error"
  | .unrecognizedName => "unrecognized_name"

def ofName? (name : String) : Option Alert := all.find? fun a => a.name == name

/-- The complete record: an alert of TLS 1.2, two bytes long, of the fatal level. -/
def record (a : Alert) : Bytes := [0x15, 0x03, 0x03, 0x00, 0x02, 0x02, a.code]

theorem ofName?_name (a : Alert) : ofName? a.name = some a := by cases a <;> decide

end Alert
end Gatehouse
