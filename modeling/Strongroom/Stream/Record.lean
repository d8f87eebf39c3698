import Strongroom.Block

/-! # Records of a cipher stream

A stream is a sequence of records. A record is a header of four bytes and a
sealed block; the header holds the length of the block and, in its highest bit,
whether the record is the last one. The header is covered by no tag, so the
rules below are all that guards it.
-/

namespace Strongroom.Stream

def headerSize : Nat := 4

/-- The bit of a header that marks the last record. -/
def finalBit : Nat := 0x80000000

/-- What stands before a block. -/
structure Header where
  last : Bool
  size : Nat
  deriving Repr, DecidableEq

namespace Header

def toBytes (header : Header) : Bytes :=
  Bytes.ofNatBE headerSize (header.size % finalBit + if header.last then finalBit else 0)

def ofBytes (bytes : Bytes) : Header :=
  let n := bytes.toNatBE
  ⟨finalBit ≤ n, n % finalBit⟩

/-- Whether a block of this length can be a sealed one. -/
def admissible (header : Header) : Bool :=
  Block.overhead ≤ header.size && header.size ≤ Block.encryptedSize Block.maxSize

end Header

def record (last : Bool) (block : Bytes) : Bytes :=
  Header.toBytes ⟨last, block.length⟩ ++ block

/-- How a byte string fails to be a stream. -/
inductive Fault where
  /-- The stream ends between two records. -/
  | missingFinal
  /-- The stream ends inside a header. -/
  | partialHeader (got : Nat)
  /-- A header names a length that no sealed block has. -/
  | blockLength (size : Nat)
  /-- The stream ends inside a block. -/
  | cutShort (got size : Nat)
  /-- Something follows the last record. -/
  | trailingData
  /-- The stream is well formed but not as long as the record of the file says. -/
  | lengthMismatch (decoded recorded : Nat)
  deriving Repr, DecidableEq

namespace Fault

def message : Fault → String
  | .missingFinal => "stream truncated: missing final record"
  | .partialHeader got =>
    s!"stream truncated: partial record header ({got} of {headerSize} bytes)"
  | .blockLength size =>
    s!"invalid block length {size} " ++
      s!"(expected {Block.overhead}..={Block.encryptedSize Block.maxSize})"
  | .cutShort got size => s!"stream truncated: block cut short ({got} of {size} bytes)"
  | .trailingData => "unexpected data after final record"
  | .lengthMismatch decoded recorded => s!"decoded {decoded} bytes, record says {recorded}"

def toError (fault : Fault) : Error :=
  .framing fault.message

end Fault

@[simp] theorem Header.length_toBytes (header : Header) : header.toBytes.length = headerSize := by
  simp [Header.toBytes]

end Strongroom.Stream
