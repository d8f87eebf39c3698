import Strongroom.Cipher.Aead
import Strongroom.Entropy
import Strongroom.Error
import Strongroom.Hash.Argon2id
import Strongroom.Text.Blank

/-! # Keys

One master key wraps the data key of every user. It comes from hexadecimal text
or is stretched from a passphrase. Keys have 32 bytes; a wrapped data key is a
nonce, the enciphered key and a tag. Neither kind of key is ever printed.
-/

namespace Strongroom

def keySize : Nat := 32

/-- Bytes of a wrapped data key. -/
def wrappedKeySize : Nat := Aead.nonceSize + keySize + Aead.tagSize

/-- Wraps the data keys of all users. -/
structure MasterKey where
  bytes : Bytes
  length_bytes : bytes.length = keySize

/-- Encrypts the files of one user. -/
structure DataKey where
  bytes : Bytes
  length_bytes : bytes.length = keySize

namespace MasterKey

def ofBytes? (bytes : Bytes) : Option MasterKey :=
  if h : bytes.length = keySize then some ⟨bytes, h⟩ else none

/-- Read a key from hexadecimal text; blanks around it do not count. -/
def ofHex (text : String) : Except Error MasterKey :=
  match Hex.decode (Text.trim text) with
  | .error fault => .error (.config s!"master key is not valid hex: {fault.message}")
  | .ok bytes =>
    if h : bytes.length = keySize then .ok ⟨bytes, h⟩
    else .error (.config s!"master key has wrong size: {bytes.length} bytes (expected {keySize})")

/-- Stretch a passphrase into a key. -/
def ofPassphrase (passphrase : String) (salt : Bytes) (cost : Argon2id.Cost) :
    Except Error MasterKey :=
  match cost.fault? with
  | some fault => .error (.config s!"invalid Argon2id params: {fault.message}")
  | none =>
    if salt.length < 8 then
      .error (.config s!"Argon2id KDF failed: {Argon2id.Fault.saltTooShort.message}")
    else
      .ok ⟨Argon2id.digest keySize cost (Bytes.ofText passphrase) salt,
        Argon2id.length_digest (by decide) _ _ _⟩

def redacted : String :=
  "MasterKey \x7b bytes: \"[REDACTED]\" \x7d"

end MasterKey

namespace DataKey

def ofBytes? (bytes : Bytes) : Option DataKey :=
  if h : bytes.length = keySize then some ⟨bytes, h⟩ else none

def generate (random : Entropy) : DataKey × Entropy :=
  (⟨random.peek keySize, random.length_peek keySize⟩, (random.draw keySize).2)

/-- Encipher a data key under the master key with a fresh nonce. -/
def wrap (master : MasterKey) (key : DataKey) (random : Entropy) : Bytes × Entropy :=
  let (nonce, random) := random.draw Aead.nonceSize
  (nonce ++ Aead.encrypt master.bytes nonce key.bytes, random)

/-- Why wrapped bytes give no key. -/
inductive WrapFault where
  | size (found : Nat)
  /-- Another master key, or changed bytes. -/
  | closed
  deriving Repr, DecidableEq

def WrapFault.message : WrapFault → String
  | .size found => s!"wrapped key has wrong size: {found} bytes (expected {wrappedKeySize})"
  | .closed => "key unwrapping failed: invalid master key or corrupted data"

def unwrap (master : MasterKey) (wrapped : Bytes) : Except Error DataKey :=
  if size : wrapped.length = wrappedKeySize then
    match opened : Aead.decrypt? master.bytes (wrapped.take Aead.nonceSize)
        (wrapped.drop Aead.nonceSize) with
    | none => .error (.keyResolution WrapFault.closed.message)
    | some bytes => .ok ⟨bytes, by
        have := Aead.length_of_decrypt? opened
        simp only [List.length_drop, size, wrappedKeySize, Aead.nonceSize, Aead.tagSize] at this
        omega⟩
  else .error (.keyResolution (WrapFault.size wrapped.length).message)

def redacted : String :=
  "DataKey \x7b bytes: \"[REDACTED]\" \x7d"

end DataKey

end Strongroom
