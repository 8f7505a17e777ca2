import Gatehouse.Crypto.Curve
import Gatehouse.Crypto.Edwards
import Gatehouse.Crypto.Rsa
import Gatehouse.Tls.Der
import Gatehouse.Tls.Identity

namespace Gatehouse.Tls

open Der

structure Algorithm where
  name : Bytes
  parameters : Bytes
deriving Repr, DecidableEq

namespace Algorithm

def contents (a : Algorithm) : Bytes := a.name ++ a.parameters

def rsa : Algorithm :=
  ⟨[0x06, 0x09, 0x2a, 0x86, 0x48, 0x86, 0xf7, 0x0d, 0x01, 0x01, 0x01], [0x05, 0x00]⟩

/-- Keys on curves have one name, and the curve for a parameter. -/
def onCurve (curve : Bytes) : Algorithm :=
  ⟨[0x06, 0x07, 0x2a, 0x86, 0x48, 0xce, 0x3d, 0x02, 0x01], curve⟩

def p256 : Algorithm := onCurve [0x06, 0x08, 0x2a, 0x86, 0x48, 0xce, 0x3d, 0x03, 0x01, 0x07]

def p384 : Algorithm := onCurve [0x06, 0x05, 0x2b, 0x81, 0x04, 0x00, 0x22]

def ed25519 : Algorithm := ⟨[0x06, 0x03, 0x2b, 0x65, 0x70], []⟩

end Algorithm

def publicKeyInfo (algorithm : Algorithm) (key : Bytes) : Bytes :=
  Element.encode ⟨sequenceTag, algorithm.contents⟩ ++ Element.encode ⟨bitStringTag, 0 :: key⟩

def attachedPublicKey : Reader Bytes := do
  if ← follows part1Tag then inside part1Tag (bitString bitStringTag) else bitString plainPart1Tag

/-- A key wrapped with the name of its algorithm (PKCS #8): the key, and the public key that the
second version of the wrapping adds, where that version is taken. -/
def wrapped (algorithm : Algorithm) (takesSecond : Bool) : Reader (Bytes × Option Bytes) :=
  inside sequenceTag do
    let version ← natural
    guard (version ≤ 1)
    guard ((← expect sequenceTag) = algorithm.contents)
    guard (version = 0 ∨ takesSecond)
    let key ← expect octetStringTag
    if ← follows part0Tag then discard (expect part0Tag)
    if version = 0 then return (key, none)
    return (key, some (← attachedPublicKey))

def rsaKey : Reader Crypto.RsaKey :=
  inside sequenceTag do
    guard ((← natural) = 0)
    return ⟨← natural, ← natural, ← natural, ← natural, ← natural, ← natural, ← natural, ← natural⟩

def rsaPublic? (der : Bytes) : Option Bytes := do
  let key ← whole? rsaKey der
  guard key.isSound
  return publicKeyInfo .rsa (Element.encode ⟨sequenceTag,
    (Der.ofNat key.modulus).encode ++ (Der.ofNat key.publicExponent).encode⟩)

/-- A key on a curve (SEC 1): the private and the public key, which must be there. A curve that is
named must be the right one. -/
def curveKey (algorithm : Algorithm) : Reader (Bytes × Bytes) :=
  inside sequenceTag do
    guard ((← natural) = 1)
    let secret ← expect octetStringTag
    if ← follows part0Tag then guard ((← expect part0Tag) = algorithm.parameters)
    return (secret, ← inside part1Tag (bitString bitStringTag))

def curvePublic? (algorithm : Algorithm) (curve : Crypto.Curve) (der : Bytes) : Option Bytes := do
  let (secret, attached) ← whole? (curveKey algorithm) der
  let key ← curve.publicKey? secret
  guard (key = attached)
  return publicKeyInfo algorithm key

/-- The public key of an Ed25519 key, which is a string of bytes inside its wrapping. -/
def edwardsPublic? (der : Bytes) (attached : Option Bytes) : Option Bytes := do
  let key ← Crypto.Edwards.publicKey? (← whole? (expect octetStringTag) der)
  guard (attached.all (· = key))
  return publicKeyInfo .ed25519 key

namespace PrivateKey

def unwrapped? (key : PrivateKey) (algorithm : Algorithm) : Option Bytes :=
  match key.form with
  | .pkcs8 => (whole? (wrapped algorithm false) key.der).map Prod.fst
  | _ => none

def asRsa? (key : PrivateKey) : Option Bytes :=
  match key.form with
  | .pkcs1 => rsaPublic? key.der
  | _ => (key.unwrapped? .rsa).bind rsaPublic?

def onCurve? (key : PrivateKey) (algorithm : Algorithm) (curve : Crypto.Curve) : Option Bytes :=
  match key.form with
  | .sec1 => curvePublic? algorithm curve key.der
  | _ => (key.unwrapped? algorithm).bind (curvePublic? algorithm curve)

def asEdwards? (key : PrivateKey) : Option Bytes :=
  match key.form with
  | .pkcs8 => (whole? (wrapped .ed25519 true) key.der).bind fun (inner, attached) =>
      edwardsPublic? inner attached
  | _ => none

/-- The public key that belongs to a key, as it stands in certificates, if the key can sign. A key
is read as one of RSA, then of the curves P-256 and P-384, then of Ed25519. -/
def publicKey? (key : PrivateKey) : Option Bytes :=
  key.asRsa? <|> key.onCurve? .p256 .p256 <|> key.onCurve? .p384 .p384 <|> key.asEdwards?

end PrivateKey
end Gatehouse.Tls
