import Strongroom.Stream.Record

/-! # Encoding a stream

Plaintext arrives in pieces of any size and leaves as records of full blocks.
What is left at the end goes into the last record, even if it is nothing.
Where blocks begin depends on the block size and the number of bytes alone.
-/

namespace Strongroom.Stream

structure Encoder where
  key : DataKey
  blockSize : Nat
  /-- Plaintext that does not fill a block yet. -/
  pending : Bytes
  received : Nat
  blockSize_pos : 0 < blockSize
  blockSize_le : blockSize ≤ Block.maxSize

namespace Encoder

def create (key : DataKey) (blockSize : Nat) : Except Error Encoder :=
  if h : 0 < blockSize ∧ blockSize ≤ Block.maxSize then
    .ok ⟨key, blockSize, [], 0, h.1, h.2⟩
  else
    .error (.invalidInput
      s!"block size must be between 1 and {Block.maxSize}, got {blockSize}")

/-- Seal the full blocks at the front of `pending`. Gives the records, newest
    last, behind those in `done` (newest first), and what is left over. -/
def sealFull (key : DataKey) (size : Nat) (pos : 0 < size) (pending : Bytes) (random : Entropy)
    (done : List Bytes) : Except Error (List Bytes) × Bytes × Entropy :=
  let block := pending.take size
  if _full : block.length = size then
    match Block.encrypt key block random with
    | (.error e, random) => (.error e, pending.drop size, random)
    | (.ok encrypted, random) =>
      sealFull key size pos (pending.drop size) random (record false encrypted :: done)
  else (.ok done.reverse, pending, random)
termination_by pending.length
decreasing_by
  simp only [block, List.length_take] at _full
  simp only [List.length_drop]
  omega

/-- Take a piece of plaintext and give the records it completes. -/
def write (encoder : Encoder) (data : Bytes) (random : Entropy) :
    Except Error (List Bytes) × Encoder × Entropy :=
  let (records, pending, random) :=
    sealFull encoder.key encoder.blockSize encoder.blockSize_pos (encoder.pending ++ data) random []
  (records, { encoder with pending, received := encoder.received + data.length }, random)

/-- The last record, with whatever is pending. -/
def finish (encoder : Encoder) (random : Entropy) : Except Error Bytes × Entropy :=
  match Block.encrypt encoder.key encoder.pending random with
  | (.error e, random) => (.error e, random)
  | (.ok encrypted, random) => (.ok (record true encrypted), random)

end Encoder

end Strongroom.Stream
