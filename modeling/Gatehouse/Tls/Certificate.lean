import Gatehouse.Tls.Der

namespace Gatehouse.Tls

open Der

inductive CertificateFault
  | badEncoding
  /-- Only the third version is read. -/
  | unsupportedVersion
  /-- The signed part and the signature name different algorithms. -/
  | algorithmMismatch
  /-- An extension that must be understood and is not. -/
  | unsupportedExtension
  | repeatedExtension
deriving Repr, DecidableEq

namespace CertificateFault

/-- The faults that only have a name are wrapped. -/
def describe : CertificateFault → String
  | .badEncoding => "BadEncoding"
  | .unsupportedVersion => "Other(OtherError(UnsupportedCertVersion))"
  | .algorithmMismatch => "Other(OtherError(SignatureAlgorithmMismatch))"
  | .unsupportedExtension => "Other(OtherError(UnsupportedCriticalExtension))"
  | .repeatedExtension => "Other(OtherError(ExtensionValueInvalid))"

end CertificateFault

namespace Certificate

/-- What a reader gives; bytes that it does not fit are badly encoded. -/
def reading {α : Type} (reader : Reader α) (bs : Bytes) : Except CertificateFault (α × Bytes) :=
  match reader bs with
  | some result => .ok result
  | none => .error .badEncoding

def frame : Reader (Bytes × Bytes) :=
  inside sequenceTag do
    let signed ← expect sequenceTag
    let algorithm ← expect sequenceTag
    let _ ← bitString bitStringTag
    return (signed, algorithm)

/-- Passes over the version, which must be the third, written as 2. -/
def skipVersion (bs : Bytes) : Except CertificateFault Bytes :=
  match expect part0Tag bs with
  | none => .error .unsupportedVersion
  | some (contents, rest) =>
    match natural contents with
    | none => .error .badEncoding
    | some (version, behind) =>
      if 0x100 ≤ version then .error .badEncoding
      else if version = 2 ∧ behind = [] then .ok rest
      else .error .unsupportedVersion

def flag : Reader Bool := do
  if ← follows booleanTag then
    match ← expect booleanTag with
    | [0xff] => return true
    | [0x00] => return false
    | _ => failure
  else return false

structure Extension where
  name : Bytes
  critical : Bool
  value : Bytes
deriving Repr, DecidableEq

def extension : Reader Extension := do
  let name ← expect nameTag
  let critical ← flag
  return ⟨name, critical, ← expect octetStringTag⟩

def keyUsage : UInt8 := 15

/-- The extensions that are understood, by the last byte of their names: use of the key, other
names, constraints, limits of names, lists of revoked certificates, and purposes. -/
def understood : List UInt8 := [keyUsage, 17, 19, 30, 31, 37]

def Extension.number? (e : Extension) : Option UInt8 :=
  match e.name with
  | [0x55, 0x1d, n] => if n ∈ understood then some n else none
  | _ => none

/-- Takes note of an extension after those noted before. One that is understood may be there once,
and its value is a sequence, the use of the key apart. -/
def Extension.note (e : Extension) (noted : List UInt8) : Except CertificateFault (List UInt8) :=
  match e.number? with
  | none => if e.critical then .error .unsupportedExtension else .ok noted
  | some n =>
    if n ∈ noted then .error .repeatedExtension
    else if n ≠ keyUsage ∧ (whole? (expect sequenceTag) e.value).isNone then .error .badEncoding
    else .ok (n :: noted)

def checkExtensions (noted : List UInt8) (bs : Bytes) : Except CertificateFault Unit :=
  match _h : element? bs with
  | none => if bs.isEmpty then .ok () else .error .badEncoding
  | some (e, rest) =>
    if e.tag ≠ sequenceTag then .error .badEncoding
    else
      match whole? extension e.contents with
      | none => .error .badEncoding
      | some x =>
        match x.note noted with
        | .error fault => .error fault
        | .ok noted => checkExtensions noted rest
termination_by bs.length
decreasing_by exact element?_length _h

def signedHead : Reader Bytes := do
  let _ ← expect integerTag
  expect sequenceTag

def signedKey : Reader Bytes := do
  let _ ← expect sequenceTag
  let _ ← expect sequenceTag
  let _ ← expect sequenceTag
  expect sequenceTag

def checkTail (bs : Bytes) : Except CertificateFault Unit := do
  if bs.isEmpty then return
  let (part, rest) ← reading (expect part3Tag) bs
  let (extensions, behind) ← reading (expect sequenceTag) part
  checkExtensions [] extensions
  if behind ≠ [] ∨ rest ≠ [] then throw .badEncoding

/-- The public key of a certificate (X.509), which is read as far as it is before anything is
listened on: its structure and the extensions that must be understood, but neither signatures nor
dates. -/
def publicKeyInfo (der : Bytes) : Except CertificateFault Bytes := do
  let ((signed, algorithm), behind) ← reading frame der
  if behind ≠ [] then throw .badEncoding
  let bs ← skipVersion signed
  let (named, bs) ← reading signedHead bs
  if named ≠ algorithm then throw .algorithmMismatch
  let (info, bs) ← reading signedKey bs
  checkTail bs
  return info

end Certificate
end Gatehouse.Tls
