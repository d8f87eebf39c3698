import Strongroom.Hash.Words64

/-! # The hash function BLAKE2b

Unkeyed, with a digest of one to 64 bytes. The message is taken in blocks of
128 bytes; the last one, padded with zeros, is marked as such.
-/

namespace Strongroom.Blake2b

/-- The words a state starts from. -/
def start : List UInt64 :=
  [0x6a09e667f3bcc908, 0xbb67ae8584caa73b, 0x3c6ef372fe94f82b, 0xa54ff53a5f1d36f1,
    0x510e527fade682d1, 0x9b05688c2b3e6c1f, 0x1f83d9abfb41bd6b, 0x5be0cd19137e2179]

/-- The order in which each of the twelve rounds takes the words of the message. -/
def schedule : List (List Nat) :=
  [[0, 1, 2, 3, 4, 5, 6, 7, 8, 9, 10, 11, 12, 13, 14, 15],
    [14, 10, 4, 8, 9, 15, 13, 6, 1, 12, 0, 2, 11, 7, 5, 3],
    [11, 8, 12, 0, 5, 2, 15, 13, 10, 14, 3, 6, 7, 1, 9, 4],
    [7, 9, 3, 1, 13, 12, 11, 14, 2, 6, 5, 10, 4, 0, 15, 8],
    [9, 0, 5, 7, 2, 4, 10, 15, 14, 1, 11, 12, 6, 8, 3, 13],
    [2, 12, 6, 10, 0, 11, 8, 3, 4, 13, 7, 5, 15, 14, 1, 9],
    [12, 5, 1, 15, 14, 13, 4, 10, 0, 7, 6, 3, 9, 2, 8, 11],
    [13, 11, 7, 14, 12, 1, 3, 9, 5, 0, 15, 4, 8, 6, 2, 10],
    [6, 15, 14, 9, 11, 3, 0, 8, 12, 2, 13, 7, 1, 4, 10, 5],
    [10, 2, 8, 4, 7, 6, 1, 5, 15, 11, 9, 14, 3, 12, 13, 0],
    [0, 1, 2, 3, 4, 5, 6, 7, 8, 9, 10, 11, 12, 13, 14, 15],
    [14, 10, 4, 8, 9, 15, 13, 6, 1, 12, 0, 2, 11, 7, 5, 3]]

/-- Mix four words of the state with two of the message. -/
@[inline] def mix (a b c d x y : UInt64) : UInt64 × UInt64 × UInt64 × UInt64 :=
  let a := a + b + x
  let d := Word64.rotate (d ^^^ a) 32
  let c := c + d
  let b := Word64.rotate (b ^^^ c) 24
  let a := a + b + y
  let d := Word64.rotate (d ^^^ a) 16
  let c := c + d
  let b := Word64.rotate (b ^^^ c) 63
  (a, b, c, d)

/-- One round: the columns, then the diagonals, with the message in the order
    of the round. -/
def round (m s : Words64) : Words64 :=
  let (x0, x4, x8, x12) := mix s.w0 s.w4 s.w8 s.w12 m.w0 m.w1
  let (x1, x5, x9, x13) := mix s.w1 s.w5 s.w9 s.w13 m.w2 m.w3
  let (x2, x6, x10, x14) := mix s.w2 s.w6 s.w10 s.w14 m.w4 m.w5
  let (x3, x7, x11, x15) := mix s.w3 s.w7 s.w11 s.w15 m.w6 m.w7
  let (x0, x5, x10, x15) := mix x0 x5 x10 x15 m.w8 m.w9
  let (x1, x6, x11, x12) := mix x1 x6 x11 x12 m.w10 m.w11
  let (x2, x7, x8, x13) := mix x2 x7 x8 x13 m.w12 m.w13
  let (x3, x4, x9, x14) := mix x3 x4 x9 x14 m.w14 m.w15
  ⟨x0, x1, x2, x3, x4, x5, x6, x7, x8, x9, x10, x11, x12, x13, x14, x15⟩

/-- Take one block into the eight chaining words. `count` is the number of
    message bytes up to and with this block. -/
def compress (h : List UInt64) (block : Bytes) (count : Nat) (last : Bool) : List UInt64 :=
  let words := Word64.ofBytes 16 block
  let tail := match start with
    | [a, b, c, d, e, f, g, i] =>
      [a, b, c, d, e ^^^ UInt64.ofNat count, f ^^^ UInt64.ofNat (count / (maxWord64 + 1)),
        if last then ~~~g else g, i]
    | other => other
  let mixed := schedule.foldl
    (fun s order => round (Words64.ofList (order.map fun i => words.getD i 0)) s)
    (Words64.ofList (h ++ tail))
  let low := mixed.toList.take 8
  let high := mixed.toList.drop 8
  (h.zipWith (· ^^^ ·) low).zipWith (· ^^^ ·) high

/-- Take the rest of a message, of which `count` bytes are already taken. -/
def absorb (h : List UInt64) (count : Nat) (message : Bytes) : List UInt64 :=
  if _h : message.length ≤ 128 then
    compress h message (count + message.length) true
  else
    absorb (compress h (message.take 128) (count + 128) false) (count + 128) (message.drop 128)
termination_by message.length
decreasing_by
  simp only [List.length_drop]
  omega

def hash (size : Nat) (message : Bytes) : Bytes :=
  let h := match start with
    | first :: rest => (first ^^^ 0x01010000 ^^^ UInt64.ofNat size) :: rest
    | [] => []
  ((absorb h 0 message).flatMap Word64.bytes).take size

theorem length_compress {h : List UInt64} (hh : h.length = 8) (block : Bytes) (count : Nat)
    (last : Bool) : (compress h block count last).length = 8 := by
  simp [compress, Words64.toList, hh]

theorem length_absorb {h : List UInt64} (hh : h.length = 8) (count : Nat) (message : Bytes) :
    (absorb h count message).length = 8 := by
  fun_induction absorb h count message with
  | case1 h count message _ => exact length_compress hh _ _ _
  | case2 h count message _ ih => exact ih (length_compress hh _ _ _)

theorem length_hash {size : Nat} (h : size ≤ 64) (message : Bytes) :
    (hash size message).length = size := by
  have words : ∀ xs : List UInt64, (xs.flatMap Word64.bytes).length = 8 * xs.length := by
    intro xs
    induction xs with
    | nil => rfl
    | cons x xs ih => simp [ih, Word64.bytes]; omega
  simp only [hash, start, List.length_take, words]
  rw [length_absorb rfl]
  omega

end Strongroom.Blake2b
