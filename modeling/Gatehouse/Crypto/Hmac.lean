import Gatehouse.Crypto.Sha2

namespace Gatehouse.Crypto

def hmacBlock : Nat := 64

/-- The key, hashed first if it is longer than a block, filled up with zeros. -/
def hmacKey (key : Bytes) : Bytes :=
  let key := if hmacBlock < key.length then sha256 key else key
  key ++ List.replicate (hmacBlock - key.length) 0

/-- The authentication tag of a message (RFC 2104, with SHA-256). -/
def hmacSha256 (key message : Bytes) : Bytes :=
  let key := hmacKey key
  sha256 (key.map (· ^^^ 0x5c) ++ sha256 (key.map (· ^^^ 0x36) ++ message))

end Gatehouse.Crypto
