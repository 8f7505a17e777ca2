import Gatehouse.Crypto.Counter
import Gatehouse.Crypto.Hmac
import Gatehouse.Hex

namespace Gatehouse.Ticket

def keyLength : Nat := 32

def nameLength : Nat := 16

def ivLength : Nat := 16

def tagLength : Nat := 32

def overhead : Nat := nameLength + ivLength + tagLength

/-- A ticket key: 32 secret bytes, from which its name and its two working keys derive. -/
structure Key where
  secret : Bytes
  length_secret : secret.length = keyLength
deriving DecidableEq

namespace Key

def ofBytes? (secret : Bytes) : Option Key :=
  if h : secret.length = keyLength then some ⟨secret, h⟩ else none

def expanded (key : Key) : Bytes := Crypto.sha512 key.secret

/-- The public name, which every ticket carries in the clear. -/
def name (key : Key) : Bytes := key.expanded.take 16

def cipherKey (key : Key) : Bytes := (key.expanded.drop 16).take 16

def tagKey (key : Key) : Bytes := (key.expanded.drop 32).take 16

def nameText (key : Key) : String := Hex.encode key.name

/-- A description that leaves the secret out. -/
def describe (key : Key) : String :=
  "SessionTicketKey \x7b name: \"" ++ key.nameText ++ "\", .. \x7d"

def tag (key : Key) (body : Bytes) : Bytes := Crypto.hmacSha256 key.tagKey body

/-- A ticket (RFC 5077): key name (16), initial counter (16), encrypted state, and a tag (32) that
authenticates everything in front of it. -/
def sealWith (key : Key) (iv state : Bytes) : Bytes :=
  let body := key.name ++ iv ++ Crypto.applyCounter key.cipherKey iv state
  body ++ key.tag body

/-- The state of a ticket sealed under this key. A ticket too short for the envelope, one with
another name and one whose tag does not fit hold none. -/
def open? (key : Key) (ticket : Bytes) : Option Bytes :=
  if ticket.length < overhead then none
  else if ticket.take nameLength ≠ key.name then none
  else
    let body := ticket.take (ticket.length - tagLength)
    if ticket.drop (ticket.length - tagLength) ≠ key.tag body then none
    else
      let iv := (body.drop nameLength).take ivLength
      some (Crypto.applyCounter key.cipherKey iv (body.drop (nameLength + ivLength)))

end Key
end Gatehouse.Ticket
