import Gatehouse.Tls.Certificate
import Gatehouse.Tls.PrivateKey

namespace Gatehouse.Tls

inductive Unfit
  | unusableKey
  | noCertificates
  | certificate (fault : CertificateFault)
  /-- The certificate is for another key. -/
  | keyMismatch
deriving Repr, DecidableEq

def Unfit.describe : Unfit → String
  | .unusableKey =>
    "General(" ++ Text.quoted "failed to parse private key as RSA, ECDSA, or EdDSA" ++ ")"
  | .noCertificates => "NoCertificatesPresented"
  | .certificate fault => "InvalidCertificate(" ++ fault.describe ++ ")"
  | .keyMismatch => "InconsistentKeys(KeyMismatch)"

/-- Looks at the key first, then at the certificate. -/
def Identity.check (identity : Identity) : Except Unfit Unit := do
  let some key := identity.key.publicKey? | throw .unusableKey
  let some first := identity.certificates.head? | throw .noCertificates
  let info ← (Certificate.publicKeyInfo first).mapError Unfit.certificate
  if info ≠ key then throw .keyMismatch

end Gatehouse.Tls
