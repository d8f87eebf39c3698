import Strongroom.Block

/-! # Opening what was sealed

Enciphering is its own inverse, because the key stream depends on the length of
the data alone. So the tag of a ciphertext is the tag that was put behind it,
and a block, or a wrapped key, opens under its own nonce.
-/

namespace Strongroom

namespace Bytes

theorem xor_xor_cancel (bytes mask : Bytes) (covered : bytes.length ≤ mask.length) :
    xor (xor bytes mask) mask = bytes := by
  induction bytes generalizing mask with
  | nil => rfl
  | cons byte rest ih =>
      cases mask with
      | nil => simp at covered
      | cons first more =>
          have shorter : rest.length ≤ more.length := by simpa using covered
          have tail := ih more shorter
          simp only [xor, List.zipWith_cons_cons] at tail ⊢
          rw [tail, UInt8.xor_assoc, UInt8.xor_self, UInt8.xor_zero]

end Bytes

theorem ChaCha20.apply_apply (key nonce : Bytes) (first : UInt32) (data : Bytes) :
    apply key nonce first (apply key nonce first data) = data := by
  have size : (apply key nonce first data).length = data.length := length_apply ..
  unfold apply at size ⊢
  rw [size]
  exact Bytes.xor_xor_cancel _ _ (length_keyStream key nonce first data.length)

@[simp] theorem Aead.decrypt?_encrypt (key nonce plaintext : Bytes) :
    decrypt? key nonce (encrypt key nonce plaintext) = some plaintext := by
  let ciphertext := ChaCha20.apply key nonce 1 plaintext
  have size : (ciphertext ++ tag key nonce ciphertext).length = ciphertext.length + tagSize := by
    simp
  have enough : ¬ (ciphertext ++ tag key nonce ciphertext).length < tagSize := by omega
  have before : (ciphertext ++ tag key nonce ciphertext).length - tagSize = ciphertext.length := by
    omega
  change decrypt? key nonce (ciphertext ++ tag key nonce ciphertext) = _
  simp only [decrypt?, enough, if_false, before, List.take_left, List.drop_left, if_true]
  exact congrArg some (ChaCha20.apply_apply key nonce 1 plaintext)

/-- A block opens under the key it was sealed with. -/
theorem Block.decrypt_encryptWith (key : DataKey) {nonce : Bytes}
    (size : nonce.length = Aead.nonceSize) (plaintext : Bytes) :
    decrypt key (encryptWith key nonce plaintext) = .ok plaintext := by
  have enough : ¬ (encryptWith key nonce plaintext).length < overhead := by
    rw [length_encryptWith key size, encryptedSize]
    omega
  simp only [decrypt, enough, if_false]
  simp only [encryptWith, List.take_left' size, List.drop_left' size, Aead.decrypt?_encrypt]

theorem Block.length_of_decrypt {key : DataKey} {block plaintext : Bytes}
    (opens : decrypt key block = .ok plaintext) :
    plaintext.length + overhead = block.length := by
  unfold decrypt at opens
  split at opens
  · cases opens
  · rename_i enough
    split at opens
    · cases opens
    · rename_i deciphered
      cases opens
      have length := Aead.length_of_decrypt? deciphered
      simp only [overhead] at enough ⊢
      rw [List.length_drop] at length
      omega

/-- Sealing a plaintext that fits a block draws one nonce and cannot fail. -/
theorem Block.encrypt_of_le (key : DataKey) {plaintext : Bytes}
    (fits : plaintext.length ≤ maxSize) (random : Entropy) :
    encrypt key plaintext random =
      (.ok (encryptWith key (random.peek Aead.nonceSize) plaintext),
        (random.draw Aead.nonceSize).2) := by
  have : ¬ plaintext.length > maxSize := by omega
  simp only [encrypt, this, if_false, Entropy.draw]

theorem DataKey.unwrap_wrap (master : MasterKey) (key : DataKey) (random : Entropy) :
    unwrap master (key.wrap master random).1 = .ok key := by
  have nonceSize : (random.peek Aead.nonceSize).length = Aead.nonceSize := random.length_peek _
  have size : (key.wrap master random).1.length = wrappedKeySize := by
    simp only [wrap, Entropy.draw, List.length_append, nonceSize, Aead.length_encrypt,
      key.length_bytes, wrappedKeySize]
    omega
  have opens : Aead.decrypt? master.bytes ((key.wrap master random).1.take Aead.nonceSize)
      ((key.wrap master random).1.drop Aead.nonceSize) = some key.bytes := by
    simp only [wrap, Entropy.draw, List.take_left' nonceSize, List.drop_left' nonceSize,
      Aead.decrypt?_encrypt]
  unfold unwrap
  rw [dif_pos size]
  split
  · rename_i closed
    rw [opens] at closed
    cases closed
  · rename_i bytes opened
    rw [opens] at opened
    cases opened
    rfl

end Strongroom
