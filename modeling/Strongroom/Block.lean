import Strongroom.Key

/-! # Sealed blocks

A block is a nonce, the enciphered plaintext and a tag. Every block has a fresh
random nonce, so no counter has to outlive it.
-/

namespace Strongroom.Block

/-- Bytes that sealing adds. -/
def overhead : Nat := Aead.nonceSize + Aead.tagSize

def maxSize : Nat := 65536

def encryptedSize (size : Nat) : Nat := size + overhead

def encryptWith (key : DataKey) (nonce plaintext : Bytes) : Bytes :=
  nonce ++ Aead.encrypt key.bytes nonce plaintext

/-- Seal a plaintext with a fresh nonce. Nothing is drawn for one that is too
    long. -/
def encrypt (key : DataKey) (plaintext : Bytes) (random : Entropy) :
    Except Error Bytes × Entropy :=
  if plaintext.length > maxSize then
    (.error (.invalidInput
      s!"block plaintext too large: {plaintext.length} bytes (maximum {maxSize})"), random)
  else
    let (nonce, random) := random.draw Aead.nonceSize
    (.ok (encryptWith key nonce plaintext), random)

def decrypt (key : DataKey) (block : Bytes) : Except Error Bytes :=
  if block.length < overhead then
    .error (.framing
      s!"encrypted block too short: {block.length} bytes (minimum {overhead})")
  else
    match Aead.decrypt? key.bytes (block.take Aead.nonceSize) (block.drop Aead.nonceSize) with
    | none => .error .authentication
    | some plaintext => .ok plaintext

@[simp] theorem length_encryptWith (key : DataKey) {nonce : Bytes}
    (h : nonce.length = Aead.nonceSize) (plaintext : Bytes) :
    (encryptWith key nonce plaintext).length = encryptedSize plaintext.length := by
  simp only [encryptWith, List.length_append, h, Aead.length_encrypt, encryptedSize, overhead]
  omega

end Strongroom.Block
