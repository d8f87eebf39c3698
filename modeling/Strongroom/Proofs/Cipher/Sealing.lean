import Strongroom.Proofs.Cipher.Opening

/-! # What opens was sealed

Opening recomputes the tag, and deciphering is undone by enciphering. So only what
sealing gives under a nonce opens under it, and there is one block, or one wrapped
key, for each key, nonce and plaintext.
-/

namespace Strongroom

namespace Entropy

def ofBytes (bytes : Bytes) : Entropy where
  tape i := bytes.getD i 0

theorem peek_ofBytes (bytes : Bytes) : (ofBytes bytes).peek bytes.length = bytes := by
  refine List.ext_getElem (length_peek _ _) fun i inside inside' => ?_
  simp [peek, ofBytes, inside']

end Entropy

namespace Aead

variable {key nonce sealed plaintext : Bytes}

/-- What opens is what sealing its plaintext gives. -/
theorem encrypt_of_decrypt? (opens : decrypt? key nonce sealed = some plaintext) :
    encrypt key nonce plaintext = sealed := by
  unfold decrypt? at opens
  split at opens
  · cases opens
  · dsimp only at opens
    split at opens
    · rename_i tagged
      have deciphered := Option.some.inj opens
      have enciphered : ChaCha20.apply key nonce 1 plaintext =
          sealed.take (sealed.length - tagSize) := by
        rw [← deciphered, ChaCha20.apply_apply]
      rw [encrypt, enciphered, ← tagged]
      exact List.take_append_drop _ _
    · cases opens

theorem decrypt?_eq_some_iff :
    decrypt? key nonce sealed = some plaintext ↔ encrypt key nonce plaintext = sealed := by
  constructor
  · exact encrypt_of_decrypt?
  · rintro rfl
    exact decrypt?_encrypt key nonce plaintext

theorem length_nonce {bytes : Bytes}
    (whole : bytes.take nonceSize ++ encrypt key nonce plaintext = bytes) :
    (bytes.take nonceSize).length = nonceSize := by
  have length := congrArg List.length whole
  rw [List.length_append, length_encrypt, List.length_take, tagSize] at length
  rw [List.length_take]
  omega

end Aead

namespace Block

variable {key : DataKey} {block plaintext : Bytes}

/-- A block opens to what it was sealed from under its own nonce, and to nothing
    else. -/
theorem decrypt_eq_ok_iff :
    decrypt key block = .ok plaintext ↔
      encryptWith key (block.take Aead.nonceSize) plaintext = block := by
  constructor
  · intro opens
    unfold decrypt at opens
    split at opens
    · cases opens
    · split at opens
      · cases opens
      · rename_i deciphered
        cases opens
        rw [encryptWith, Aead.decrypt?_eq_some_iff.1 deciphered]
        exact List.take_append_drop _ _
  · intro whole
    rw [← whole]
    exact decrypt_encryptWith key (Aead.length_nonce whole) plaintext

theorem decrypt_cases (key : DataKey) (block : Bytes) :
    (∃ plaintext, decrypt key block = .ok plaintext) ∨
      (block.length < overhead ∧ ∃ detail, decrypt key block = .error (.framing detail)) ∨
        overhead ≤ block.length ∧ decrypt key block = .error .authentication := by
  unfold decrypt
  split
  · rename_i short
    exact .inr (.inl ⟨short, _, rfl⟩)
  · rename_i enough
    split
    · exact .inr (.inr ⟨Nat.le_of_not_lt enough, rfl⟩)
    · exact .inl ⟨_, rfl⟩

theorem encrypt_of_peek (fits : plaintext.length ≤ maxSize) {random : Entropy} {nonce : Bytes}
    (drawn : random.peek Aead.nonceSize = nonce) :
    (encrypt key plaintext random).1 = .ok (encryptWith key nonce plaintext) := by
  rw [encrypt_of_le key fits, drawn]

end Block

namespace DataKey

variable {master : MasterKey} {key : DataKey} {wrapped : Bytes}

def wrapWith (master : MasterKey) (nonce : Bytes) (key : DataKey) : Bytes :=
  nonce ++ Aead.encrypt master.bytes nonce key.bytes

theorem wrap_of_peek {random : Entropy} {nonce : Bytes}
    (drawn : random.peek Aead.nonceSize = nonce) :
    (key.wrap master random).1 = wrapWith master nonce key := by
  subst drawn
  rfl

theorem length_wrapWith {nonce : Bytes} (size : nonce.length = Aead.nonceSize) :
    (wrapWith master nonce key).length = wrappedKeySize := by
  simp only [wrapWith, List.length_append, size, Aead.length_encrypt, key.length_bytes,
    wrappedKeySize]
  omega

theorem unwrap_wrapWith {nonce : Bytes} (size : nonce.length = Aead.nonceSize) :
    unwrap master (wrapWith master nonce key) = .ok key := by
  have drawn := Entropy.peek_ofBytes nonce
  rw [size] at drawn
  rw [← wrap_of_peek drawn]
  exact unwrap_wrap master key _

/-- Wrapped bytes give the key that they were wrapped from under their own nonce, and
    no other one. -/
theorem unwrap_eq_ok_iff :
    unwrap master wrapped = .ok key ↔
      wrapWith master (wrapped.take Aead.nonceSize) key = wrapped := by
  constructor
  · intro opens
    unfold unwrap at opens
    split at opens
    · split at opens
      · cases opens
      · rename_i opened
        cases opens
        rw [wrapWith, Aead.decrypt?_eq_some_iff.1 opened]
        exact List.take_append_drop _ _
    · cases opens
  · intro whole
    rw [← whole]
    exact unwrap_wrapWith (Aead.length_nonce whole)

theorem length_of_unwrap (opens : unwrap master wrapped = .ok key) :
    wrapped.length = wrappedKeySize := by
  unfold unwrap at opens
  split at opens
  · assumption
  · cases opens

theorem unwrap_cases (master : MasterKey) (wrapped : Bytes) :
    (∃ key, unwrap master wrapped = .ok key) ∨
      ∃ detail, unwrap master wrapped = .error (.keyResolution detail) := by
  unfold unwrap
  split
  · split
    · exact .inr ⟨_, rfl⟩
    · exact .inl ⟨_, rfl⟩
  · exact .inr ⟨_, rfl⟩

end DataKey

/-- Every plaintext of at most 65536 bytes is sealed with whatever nonce is drawn, in 28
    bytes more, and opens again; every data key is wrapped in 60 bytes and unwraps again.
    And nothing else opens: a block that opens is what sealing its plaintext under its own
    first 12 bytes gives, so there is one for each key, nonce and plaintext, and likewise
    for wrapped keys. All other blocks are too short or not authentic, and all other
    wrapped keys give no key. -/
theorem opening_inverts_sealing :
    (∀ (key : DataKey) (plaintext : Bytes) (random : Entropy), plaintext.length ≤ 65536 →
      ∃ block rest, Block.encrypt key plaintext random = (.ok block, rest) ∧
        block.take 12 = random.peek 12 ∧ block.length = plaintext.length + 28 ∧
          Block.decrypt key block = .ok plaintext) ∧
      (∀ (key : DataKey) (block : Bytes),
        (∃ plaintext, Block.decrypt key block = .ok plaintext ∧
            Block.encryptWith key (block.take 12) plaintext = block ∧
              ∀ random : Entropy, random.peek 12 = block.take 12 → plaintext.length ≤ 65536 →
                (Block.encrypt key plaintext random).1 = .ok block) ∨
          (block.length < 28 ∧ ∃ detail, Block.decrypt key block = .error (.framing detail)) ∨
            28 ≤ block.length ∧ Block.decrypt key block = .error .authentication) ∧
        (∀ (key : DataKey) (plaintext block block' : Bytes),
          Block.decrypt key block = .ok plaintext → Block.decrypt key block' = .ok plaintext →
            block.take 12 = block'.take 12 → block = block') ∧
          (∀ (master : MasterKey) (key : DataKey) (random : Entropy),
            (key.wrap master random).1.length = 60 ∧
              DataKey.unwrap master (key.wrap master random).1 = .ok key) ∧
            ∀ (master : MasterKey) (wrapped : Bytes),
              (∃ key, DataKey.unwrap master wrapped = .ok key ∧ wrapped.length = 60 ∧
                  DataKey.wrapWith master (wrapped.take 12) key = wrapped ∧
                    ∀ random : Entropy, random.peek 12 = wrapped.take 12 →
                      (key.wrap master random).1 = wrapped) ∨
                ∃ detail, DataKey.unwrap master wrapped = .error (.keyResolution detail) := by
  refine ⟨?_, ?_, ?_, ?_, ?_⟩
  · intro key plaintext random fits
    have size : (random.peek Aead.nonceSize).length = Aead.nonceSize := random.length_peek _
    exact ⟨_, _, Block.encrypt_of_le key fits random, List.take_left' size,
      Block.length_encryptWith key size plaintext, Block.decrypt_encryptWith key size plaintext⟩
  · intro key block
    rcases Block.decrypt_cases key block with ⟨plaintext, opens⟩ | short | closed
    · have whole := Block.decrypt_eq_ok_iff.1 opens
      refine .inl ⟨plaintext, opens, whole, fun random drawn fits => ?_⟩
      exact (Block.encrypt_of_peek fits drawn).trans (congrArg Except.ok whole)
    · exact .inr (.inl short)
    · exact .inr (.inr closed)
  · intro key plaintext block block' opens opens' same
    calc block = Block.encryptWith key (block.take 12) plaintext :=
          (Block.decrypt_eq_ok_iff.1 opens).symm
      _ = Block.encryptWith key (block'.take 12) plaintext := by rw [same]
      _ = block' := Block.decrypt_eq_ok_iff.1 opens'
  · intro master key random
    have size : (random.peek Aead.nonceSize).length = Aead.nonceSize := random.length_peek _
    exact ⟨DataKey.length_wrapWith size, DataKey.unwrap_wrap master key random⟩
  · intro master wrapped
    rcases DataKey.unwrap_cases master wrapped with ⟨key, opens⟩ | closed
    · have whole := DataKey.unwrap_eq_ok_iff.1 opens
      refine .inl ⟨key, opens, DataKey.length_of_unwrap opens, whole, fun random drawn => ?_⟩
      exact (DataKey.wrap_of_peek drawn).trans whole
    · exact .inr closed

/-- Three bytes sealed with one nonce in a block that opens, and in no other one. -/
theorem three_bytes_open_from_one_block :
    let key : DataKey := ⟨List.replicate 32 0, rfl⟩
    let random : Entropy := ⟨fun i => UInt8.ofNat i, 0⟩
    [1, 2, 3].length ≤ 65536 ∧ ∃ block rest,
      Block.encrypt key [1, 2, 3] random = (.ok block, rest) ∧
      block.length = 31 ∧ Block.decrypt key block = .ok [1, 2, 3] ∧
        ∀ block', Block.decrypt key block' = .ok [1, 2, 3] →
          block'.take 12 = random.peek 12 → block' = block := by
  intro key random
  obtain ⟨seals, _, one, _⟩ := opening_inverts_sealing
  obtain ⟨block, rest, sealed_, nonce, size, opens⟩ := seals key [1, 2, 3] random (by decide)
  exact ⟨by decide, block, rest, sealed_, size, opens, fun block' opens' nonce' =>
    one key [1, 2, 3] block' block opens' opens (nonce'.trans nonce.symm)⟩

end Strongroom
