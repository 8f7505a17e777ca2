import Gatehouse.Crypto.Aes
import Gatehouse.Crypto.Word

namespace Gatehouse.Crypto

def cipherBlock : Nat := 16

/-- `n` blocks of key stream from a counter on. The counter is one big-endian number that wraps. -/
def keyStream (key : Bytes) (counter : Nat) : Nat → Bytes
  | 0 => []
  | n + 1 => Aes.encryptBlock key (bytesOfNat cipherBlock counter) ++ keyStream key (counter + 1) n

/-- Encrypts or decrypts: the first block is that of the initial counter `iv`. -/
def applyCounter (key iv text : Bytes) : Bytes :=
  List.zipWith (· ^^^ ·) text
    (keyStream key (natOfBytes iv) ((text.length + cipherBlock - 1) / cipherBlock))

end Gatehouse.Crypto
