import Gatehouse.Bytes

namespace Gatehouse.Rdp

def routingOffset : Nat := 11

/-- What a routing field starts with: a cookie, or a redirection. -/
def isRouting (bs : Bytes) : Bool :=
  (Bytes.ofString "Cookie:").isPrefixOf bs || (Bytes.ofString "tsv://").isPrefixOf bs

def afterLineEnd? : Bytes → Option Bytes
  | 13 :: 10 :: rest => some rest
  | _ :: rest => afterLineEnd? rest
  | [] => none

/-- The frame without its routing field. One that does not end stays. -/
def stripRouting (frame : Bytes) : Bytes :=
  let rest := frame.drop routingOffset
  if isRouting rest then
    match afterLineEnd? rest with
    | some tail => frame.take routingOffset ++ tail
    | none => frame
  else frame

/-- A Connection Request comes in a frame 03 00, two bytes of its length, one byte, e0 00 00 00 00
00, perhaps a routing field, 01 00 08 00 and four bytes of protocols. This is its middle if there is
no routing field. -/
def requestHead : Bytes := [0xe0, 0, 0, 0, 0, 0, 1, 0, 8, 0]

/-- Whether a frame without routing field asks for TLS. Neither length is looked at. -/
def asksForTls : Bytes → Bool
  | 0x03 :: 0x00 :: _ :: _ :: _ :: body =>
    body == requestHead ++ [0x01, 0, 0, 0] || body == requestHead ++ [0x03, 0, 0, 0]
  | _ => false

def confirm : Bytes :=
  [0x03, 0x00, 0x00, 0x13, 0x0e, 0xd0, 0x00, 0x00, 0x12, 0x34, 0x00, 0x02, 0x1f, 0x08, 0x00, 0x01,
    0x00, 0x00, 0x00]

end Gatehouse.Rdp
