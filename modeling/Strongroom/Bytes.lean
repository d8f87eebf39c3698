/-! # Byte strings

Byte strings are lists, so that a law about them is a law about lists. Numbers
are read from and written to them in both byte orders.
-/

namespace Strongroom

def maxWord32 : Nat := 0xFFFFFFFF

def maxWord64 : Nat := 0xFFFFFFFFFFFFFFFF

abbrev Bytes := List UInt8

namespace Bytes

def toNatLE (bytes : Bytes) : Nat :=
  bytes.foldr (fun byte rest => byte.toNat + 256 * rest) 0

def toNatBE (bytes : Bytes) : Nat :=
  bytes.foldl (fun high byte => 256 * high + byte.toNat) 0

/-- The lowest `size` bytes of a number, least significant first. -/
def ofNatLE : (size : Nat) → Nat → Bytes
  | 0, _ => []
  | size + 1, n => UInt8.ofNat n :: ofNatLE size (n / 256)

/-- The lowest `size` bytes of a number, most significant first. -/
def ofNatBE (size n : Nat) : Bytes :=
  (ofNatLE size n).reverse

/-- Bytewise exclusive or; the longer side is cut to the shorter. -/
def xor (a b : Bytes) : Bytes :=
  a.zipWith (· ^^^ ·) b

/-- Bytes added up to a multiple of `unit`, all zero. -/
def padding (unit : Nat) (bytes : Bytes) : Bytes :=
  List.replicate ((unit - bytes.length % unit) % unit) 0

def ofText (text : String) : Bytes :=
  text.toUTF8.data.toList

/-- The text whose UTF-8 form this is, if there is one. -/
def text? (bytes : Bytes) : Option String :=
  String.fromUTF8? ⟨bytes.toArray⟩

@[simp] theorem length_ofNatLE (size n : Nat) : (ofNatLE size n).length = size := by
  induction size generalizing n with
  | zero => rfl
  | succ size ih => simp [ofNatLE, ih]

@[simp] theorem length_ofNatBE (size n : Nat) : (ofNatBE size n).length = size := by
  simp [ofNatBE]

@[simp] theorem length_xor (a b : Bytes) : (xor a b).length = min a.length b.length := by
  simp [xor]

end Bytes

end Strongroom
