import Strongroom.Cipher.ChaCha20
import Strongroom.Cipher.Poly1305

/-! # Authenticated encryption

ChaCha20 with Poly1305 as RFC 8439 joins them, without associated data: block
zero of the key stream keys the authenticator, the data is enciphered from
block one on, and the tag covers the padded ciphertext and its length.
-/

namespace Strongroom.Aead

def nonceSize : Nat := 12

def tagSize : Nat := 16

def tag (key nonce ciphertext : Bytes) : Bytes :=
  let oneTimeKey := (ChaCha20.keyStream key nonce 0 64).take 32
  Poly1305.tag oneTimeKey
    (ciphertext ++ ciphertext.padding 16 ++ Bytes.ofNatLE 8 0 ++ Bytes.ofNatLE 8 ciphertext.length)

/-- Encipher and append the tag. -/
def encrypt (key nonce plaintext : Bytes) : Bytes :=
  let ciphertext := ChaCha20.apply key nonce 1 plaintext
  ciphertext ++ tag key nonce ciphertext

/-- Check the tag at the end and decipher the rest; nothing if the tag is wrong
    or there is not even room for one. -/
def decrypt? (key nonce sealed : Bytes) : Option Bytes :=
  if sealed.length < tagSize then none
  else
    let size := sealed.length - tagSize
    let ciphertext := sealed.take size
    if sealed.drop size = tag key nonce ciphertext then
      some (ChaCha20.apply key nonce 1 ciphertext)
    else none

@[simp] theorem length_tag (key nonce ciphertext : Bytes) :
    (tag key nonce ciphertext).length = tagSize := by
  simp [tag, tagSize]

@[simp] theorem length_encrypt (key nonce plaintext : Bytes) :
    (encrypt key nonce plaintext).length = plaintext.length + tagSize := by
  simp [encrypt]

theorem length_of_decrypt? {key nonce sealed plaintext : Bytes}
    (h : decrypt? key nonce sealed = some plaintext) :
    plaintext.length + tagSize = sealed.length := by
  unfold decrypt? at h
  split at h
  · cases h
  · dsimp only at h
    split at h
    · cases h
      simp only [ChaCha20.length_apply, List.length_take]
      omega
    · cases h

end Strongroom.Aead
