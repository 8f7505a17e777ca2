import Gatehouse.Crypto.Counter
import Gatehouse.Crypto.Hmac

namespace Gatehouse.Crypto

@[simp] theorem length_bytesOfNat (width n : Nat) : (bytesOfNat width n).length = width := by
  simp [bytesOfNat]

namespace Sha2

variable {W : Type} [Word W]

@[simp] theorem length_compress (v : Sha2 W) (chain : List W) (block : Bytes) :
    (v.compress chain block).length = min chain.length 8 := by
  simp [compress, State.toList]

theorem length_foldl_compress (v : Sha2 W) (chain : List W) (blocks : List Bytes)
    (h : chain.length = 8) : (blocks.foldl v.compress chain).length = 8 := by
  induction blocks generalizing chain with
  | nil => exact h
  | cons block blocks ih => exact ih _ (by simp [h])

theorem length_digest (v : Sha2 W) (message : Bytes) (h : v.initial.length = 8) :
    (v.digest message).length = 8 * Word.size W := by
  have hwidth (ws : List W) : (ws.flatMap Word.toBytes).length = ws.length * Word.size W := by
    induction ws with
    | nil => simp
    | cons w ws ih => simp [ih, Word.toBytes, Nat.add_mul]; omega
  rw [digest, hwidth, length_foldl_compress v _ _ h]

end Sha2

@[simp] theorem length_sha256 (message : Bytes) : (sha256 message).length = 32 :=
  sha256Parameters.length_digest message rfl

@[simp] theorem length_sha512 (message : Bytes) : (sha512 message).length = 64 :=
  sha512Parameters.length_digest message rfl

@[simp] theorem length_hmacSha256 (key message : Bytes) :
    (hmacSha256 key message).length = 32 := by
  simp [hmacSha256]

namespace Aes

@[simp] theorem length_xor (xs ys : Bytes) : (xor xs ys).length = min xs.length ys.length := by
  simp [xor]

@[simp] theorem length_shiftRows (block : Bytes) : (shiftRows block).length = 16 := rfl

theorem length_mixColumns (block : Bytes) :
    (mixColumns block).length = block.length / 4 * 4 := by
  fun_induction mixColumns block with
  | case1 a b c d rest ih => simp [ih]; omega
  | case2 bs hshort =>
    match bs, hshort with
    | [], _ | [_], _ | [_, _], _ | [_, _, _], _ => simp
    | a :: b :: c :: d :: rest, hshort => exact absurd rfl (hshort a b c d rest)

theorem length_nextRoundKey (constant : UInt8) (key : Bytes) (h : key.length = 16) :
    (nextRoundKey constant key).length = 16 := by
  have hlast : ((key.drop 12).map substitute).length = 4 := by simp [h]
  unfold nextRoundKey
  cases hl : (key.drop 12).map substitute with
  | nil => simp [hl] at hlast
  | cons a rest =>
    rw [hl, List.length_cons] at hlast
    simp [h]
    omega

theorem length_of_mem_expand (key : Bytes) (h : key.length = 16) (constants : List UInt8) :
    ∀ k ∈ expand key constants, k.length = 16 := by
  induction constants generalizing key with
  | nil => simp [expand]
  | cons c cs ih =>
    have hnext := length_nextRoundKey c key h
    intro k hk
    rcases List.mem_cons.mp hk with rfl | hk
    · exact hnext
    · exact ih _ hnext k hk

theorem length_rounds (block : Bytes) (keys : List Bytes) (hb : block.length = 16)
    (hk : ∀ k ∈ keys, k.length = 16) : (rounds block keys).length = 16 := by
  fun_induction rounds block keys with
  | case1 => exact hb
  | case2 block last => simp [hk last (by simp)]
  | case3 block key keys _ ih =>
    apply ih
    · simp [length_mixColumns, hk key (by simp)]
    · intro k hmem
      exact hk k (by simp [hmem])

theorem length_encryptBlock (key block : Bytes) (hk : key.length = 16) (hb : block.length = 16) :
    (encryptBlock key block).length = 16 := by
  apply length_rounds
  · simp [hk, hb]
  · exact length_of_mem_expand key hk roundConstants

end Aes

theorem length_keyStream (key : Bytes) (hk : key.length = 16) (counter n : Nat) :
    (keyStream key counter n).length = 16 * n := by
  induction n generalizing counter with
  | zero => rfl
  | succ n ih =>
    have hblock := Aes.length_encryptBlock key (bytesOfNat cipherBlock counter) hk
      (length_bytesOfNat _ _)
    simp only [keyStream, List.length_append, hblock, ih]
    omega

/-- The key stream is never shorter than the text. -/
theorem length_applyCounter (key iv text : Bytes) (hk : key.length = 16) :
    (applyCounter key iv text).length = text.length := by
  simp only [applyCounter, List.length_zipWith, length_keyStream key hk, cipherBlock]
  omega

end Gatehouse.Crypto
