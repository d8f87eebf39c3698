import Strongroom.Cipher.ChaCha20
import Strongroom.Entropy

/-! # Tapes from a seed

A tape of random bytes is grown from a seed of 32 bytes as the key stream of the
cipher. A number keeps apart what grows from one seed.
-/

namespace Strongroom

/-- Blocks that a nonce is good for. -/
def blockCount : Nat := 0x100000000

/-- The byte at a place of the key stream that grows from a seed. -/
def seededByte (seed : Bytes) (stream place : Nat) : UInt8 :=
  let nonce := Bytes.ofNatLE 12 (stream + place / 64 / blockCount * blockCount)
  let start := ChaCha20.start seed nonce
  (ChaCha20.block { start with w12 := UInt32.ofNat (place / 64) }).getD (place % 64) 0

/-- The tape of random bytes that grows from a seed. -/
def Entropy.ofSeed (seed : Bytes) : Entropy where
  tape := seededByte seed 0

def IdSupply.ofSeed (seed : Bytes) : IdSupply where
  tape i := Uuid.ofRandom ((List.range 16).map fun j => seededByte seed 1 (16 * i + j))

end Strongroom
