import Gatehouse.Pem
import Gatehouse.Storage.Disk

namespace Gatehouse.Tls

inductive KeyForm
  | pkcs1
  | sec1
  | pkcs8
deriving Repr, DecidableEq

def KeyForm.name : KeyForm → String
  | .pkcs1 => "Pkcs1"
  | .sec1 => "Sec1"
  | .pkcs8 => "Pkcs8"

def KeyForm.ofKind? : Pem.Kind → Option KeyForm
  | .rsaPrivateKey => some .pkcs1
  | .ecPrivateKey => some .sec1
  | .privateKey => some .pkcs8
  | _ => none

structure PrivateKey where
  form : KeyForm
  der : Bytes
deriving Repr, DecidableEq

structure Identity where
  certificates : List Bytes
  key : PrivateKey
deriving Repr, DecidableEq

inductive IdentityError
  | unreadable (path : String) (cause : Storage.Error)
  | malformed (path : String) (fault : Pem.Fault)
  | noCertificates (path : String)
  | noPrivateKey (path : String)
deriving Repr, DecidableEq

def IdentityError.path : IdentityError → String
  | .unreadable path _ => path
  | .malformed path _ => path
  | .noCertificates path => path
  | .noPrivateKey path => path

/-- What is missing; nothing is said of a file that cannot be read. -/
def IdentityError.message? : IdentityError → Option String
  | .unreadable _ _ => none
  | .malformed _ _ => none
  | .noCertificates path => some ("no certificates found in " ++ path)
  | .noPrivateKey path => some ("no private key found in " ++ path)

def IdentityError.describe : IdentityError → String
  | .unreadable path cause =>
    "Io \x7b path: " ++ Text.quoted path ++ ", source: " ++ cause.describe ++ " \x7d"
  | .malformed path fault =>
    "Io \x7b path: " ++ Text.quoted path ++ ", source: Custom \x7b kind: InvalidData, error: " ++
      Text.quoted fault.message ++ " \x7d \x7d"
  | .noCertificates path => "NoCertificates(" ++ Text.quoted path ++ ")"
  | .noPrivateKey path => "NoPrivateKey(" ++ Text.quoted path ++ ")"

/-- All certificates in a file, which must be well formed to its end. -/
def loadCertificates (path : String) (disk : Storage.Disk) : Except IdentityError (List Bytes) :=
  match disk.read path with
  | .error cause => .error (.unreadable path cause)
  | .ok text =>
    let (items, fault) := Pem.items text
    let found := items.filterMap fun i => if i.kind = .certificate then some i.der else none
    match fault with
    | some fault => .error (.malformed path fault)
    | none => if found.isEmpty then .error (.noCertificates path) else .ok found

/-- The first private key in a file; what stands behind it is not looked at. -/
def loadKey (path : String) (disk : Storage.Disk) : Except IdentityError PrivateKey :=
  match disk.read path with
  | .error cause => .error (.unreadable path cause)
  | .ok text =>
    let (items, fault) := Pem.items text
    match items.findSome? (fun i => (KeyForm.ofKind? i.kind).map (⟨·, i.der⟩)), fault with
    | some key, _ => .ok key
    | none, some fault => .error (.malformed path fault)
    | none, none => .error (.noPrivateKey path)

def Identity.load (certPath keyPath : String) (disk : Storage.Disk) :
    Except IdentityError Identity := do
  let chain ← loadCertificates certPath disk
  let key ← loadKey keyPath disk
  return ⟨chain, key⟩

end Gatehouse.Tls
