import Strongroom.Hash.Blake2b

/-! # The password hash Argon2id

Version 1.3, without a secret and without associated data. A passphrase fills a
matrix of blocks, `lanes` rows of them, several times over; the last column
gives the digest. Where a block takes its second input from depends on the data
only after the first half of the first pass.
-/

namespace Strongroom.Argon2id

structure Cost where
  /-- Memory in units of 1024 bytes. -/
  memory : Nat
  /-- Passes over the memory. -/
  passes : Nat
  lanes : Nat
  deriving Repr, DecidableEq

inductive Fault where
  | memoryTooSmall
  | passesTooFew
  | lanesTooFew
  | lanesTooMany
  | saltTooShort
  deriving Repr, DecidableEq

def Fault.message : Fault → String
  | .memoryTooSmall => "memory cost is too small"
  | .passesTooFew => "time cost is too small"
  | .lanesTooFew => "not enough threads"
  | .lanesTooMany => "too many threads"
  | .saltTooShort => "salt is too short"

/-- The first fault of a cost: memory, then passes, then lanes. -/
def Cost.fault? (cost : Cost) : Option Fault :=
  if cost.memory < 8 || cost.memory < cost.lanes * 8 then some .memoryTooSmall
  else if cost.passes < 1 then some .passesTooFew
  else if cost.lanes < 1 then some .lanesTooFew
  else if cost.lanes > 0xFFFFFF then some .lanesTooMany
  else none

/-- A block: eight rows of sixteen words. -/
structure Block where
  r0 : Words64
  r1 : Words64
  r2 : Words64
  r3 : Words64
  r4 : Words64
  r5 : Words64
  r6 : Words64
  r7 : Words64
  deriving Inhabited

@[inline] def mix (a b c d : UInt64) : UInt64 × UInt64 × UInt64 × UInt64 :=
  let low (x : UInt64) : UInt64 := x &&& 0xFFFFFFFF
  let a := a + b + 2 * low a * low b
  let d := Word64.rotate (d ^^^ a) 32
  let c := c + d + 2 * low c * low d
  let b := Word64.rotate (b ^^^ c) 24
  let a := a + b + 2 * low a * low b
  let d := Word64.rotate (d ^^^ a) 16
  let c := c + d + 2 * low c * low d
  let b := Word64.rotate (b ^^^ c) 63
  (a, b, c, d)

/-- Mix the columns of sixteen words, then the diagonals. -/
def permute (s : Words64) : Words64 :=
  let (x0, x4, x8, x12) := mix s.w0 s.w4 s.w8 s.w12
  let (x1, x5, x9, x13) := mix s.w1 s.w5 s.w9 s.w13
  let (x2, x6, x10, x14) := mix s.w2 s.w6 s.w10 s.w14
  let (x3, x7, x11, x15) := mix s.w3 s.w7 s.w11 s.w15
  let (x0, x5, x10, x15) := mix x0 x5 x10 x15
  let (x1, x6, x11, x12) := mix x1 x6 x11 x12
  let (x2, x7, x8, x13) := mix x2 x7 x8 x13
  let (x3, x4, x9, x14) := mix x3 x4 x9 x14
  ⟨x0, x1, x2, x3, x4, x5, x6, x7, x8, x9, x10, x11, x12, x13, x14, x15⟩

namespace Block

def xor (s t : Block) : Block :=
  ⟨s.r0.xor t.r0, s.r1.xor t.r1, s.r2.xor t.r2, s.r3.xor t.r3,
    s.r4.xor t.r4, s.r5.xor t.r5, s.r6.xor t.r6, s.r7.xor t.r7⟩

def permuteRows (b : Block) : Block :=
  ⟨permute b.r0, permute b.r1, permute b.r2, permute b.r3,
    permute b.r4, permute b.r5, permute b.r6, permute b.r7⟩

/-- Swap rows and columns, a column being two words wide. -/
def transpose (b : Block) : Block :=
  ⟨⟨b.r0.w0, b.r0.w1, b.r1.w0, b.r1.w1, b.r2.w0, b.r2.w1, b.r3.w0, b.r3.w1,
      b.r4.w0, b.r4.w1, b.r5.w0, b.r5.w1, b.r6.w0, b.r6.w1, b.r7.w0, b.r7.w1⟩,
    ⟨b.r0.w2, b.r0.w3, b.r1.w2, b.r1.w3, b.r2.w2, b.r2.w3, b.r3.w2, b.r3.w3,
      b.r4.w2, b.r4.w3, b.r5.w2, b.r5.w3, b.r6.w2, b.r6.w3, b.r7.w2, b.r7.w3⟩,
    ⟨b.r0.w4, b.r0.w5, b.r1.w4, b.r1.w5, b.r2.w4, b.r2.w5, b.r3.w4, b.r3.w5,
      b.r4.w4, b.r4.w5, b.r5.w4, b.r5.w5, b.r6.w4, b.r6.w5, b.r7.w4, b.r7.w5⟩,
    ⟨b.r0.w6, b.r0.w7, b.r1.w6, b.r1.w7, b.r2.w6, b.r2.w7, b.r3.w6, b.r3.w7,
      b.r4.w6, b.r4.w7, b.r5.w6, b.r5.w7, b.r6.w6, b.r6.w7, b.r7.w6, b.r7.w7⟩,
    ⟨b.r0.w8, b.r0.w9, b.r1.w8, b.r1.w9, b.r2.w8, b.r2.w9, b.r3.w8, b.r3.w9,
      b.r4.w8, b.r4.w9, b.r5.w8, b.r5.w9, b.r6.w8, b.r6.w9, b.r7.w8, b.r7.w9⟩,
    ⟨b.r0.w10, b.r0.w11, b.r1.w10, b.r1.w11, b.r2.w10, b.r2.w11, b.r3.w10, b.r3.w11,
      b.r4.w10, b.r4.w11, b.r5.w10, b.r5.w11, b.r6.w10, b.r6.w11, b.r7.w10, b.r7.w11⟩,
    ⟨b.r0.w12, b.r0.w13, b.r1.w12, b.r1.w13, b.r2.w12, b.r2.w13, b.r3.w12, b.r3.w13,
      b.r4.w12, b.r4.w13, b.r5.w12, b.r5.w13, b.r6.w12, b.r6.w13, b.r7.w12, b.r7.w13⟩,
    ⟨b.r0.w14, b.r0.w15, b.r1.w14, b.r1.w15, b.r2.w14, b.r2.w15, b.r3.w14, b.r3.w15,
      b.r4.w14, b.r4.w15, b.r5.w14, b.r5.w15, b.r6.w14, b.r6.w15, b.r7.w14, b.r7.w15⟩⟩

/-- Compress two blocks into one. -/
def compress (x y : Block) : Block :=
  let r := x.xor y
  r.xor r.permuteRows.transpose.permuteRows.transpose

def rows (b : Block) : List Words64 :=
  [b.r0, b.r1, b.r2, b.r3, b.r4, b.r5, b.r6, b.r7]

/-- The block with the given rows; missing ones are zero. -/
def ofRows (rows : List Words64) : Block :=
  let row (i : Nat) : Words64 := rows.getD i Words64.zero
  ⟨row 0, row 1, row 2, row 3, row 4, row 5, row 6, row 7⟩

def zero : Block :=
  ofRows []

def ofBytes (data : Bytes) : Block :=
  ofRows ((List.range 8).map fun i => Words64.ofList (Word64.ofBytes 16 (data.drop (128 * i))))

def toBytes (b : Block) : Bytes :=
  b.rows.flatMap fun row => row.toList.flatMap Word64.bytes

def get (b : Block) (i : Nat) : UInt64 :=
  (b.rows.getD (i / 16) Words64.zero).get (i % 16)

end Block

/-- Digest in steps of 32 bytes: each step but the last hashes the one before
    and gives up half of its 64 bytes. -/
def extend : (fuel : Nat) → (size : Nat) → (last : Bytes) → Bytes
  | 0, _, _ => []
  | fuel + 1, size, last =>
    if size ≤ 64 then Blake2b.hash size last
    else
      let next := Blake2b.hash 64 last
      next.take 32 ++ extend fuel (size - 32) next

def longHash (size : Nat) (message : Bytes) : Bytes :=
  let message := Bytes.ofNatLE 4 size ++ message
  if size ≤ 64 then Blake2b.hash size message
  else
    let first := Blake2b.hash 64 message
    first.take 32 ++ extend size (size - 32) first

/-- The shape of the matrix: its lanes, and the blocks in a quarter of one. -/
structure Shape where
  lanes : Nat
  quarter : Nat

namespace Shape

def columns (shape : Shape) : Nat :=
  4 * shape.quarter

/-- Where a block stands in the memory. -/
def index (shape : Shape) (lane column : Nat) : Nat :=
  lane * shape.columns + column

end Shape

/-- Where the filling stands: pass, quarter, lane, and the place in the quarter. -/
structure Place where
  pass : Nat
  slice : Nat
  lane : Nat
  offset : Nat

/-- Whether the second input is chosen independently of the data. -/
def Place.independent (place : Place) : Bool :=
  place.pass == 0 && place.slice < 2

/-- The words that choose the second inputs for 128 blocks, the `count`-th such
    group of a quarter. -/
def addresses (cost : Cost) (shape : Shape) (place : Place) (count : Nat) : Block :=
  let words :=
    [place.pass, place.lane, place.slice, shape.lanes * shape.columns, cost.passes, 2, count]
  let seed := Block.ofRows [Words64.ofList (words.map UInt64.ofNat)]
  Block.compress Block.zero (Block.compress Block.zero seed)

/-- The numbers that half a word can hold are below this one. -/
def halfWord : Nat := 0x100000000

/-- The second input of a place, chosen by a word. -/
def reference (shape : Shape) (place : Place) (choice : UInt64) : Nat :=
  let low := choice.toNat % halfWord
  let lane :=
    if place.pass == 0 && place.slice == 0 then place.lane
    else choice.toNat / halfWord % shape.lanes
  let finished :=
    if place.pass == 0 then place.slice * shape.quarter else shape.columns - shape.quarter
  let area :=
    if lane == place.lane then finished + place.offset - 1
    else if place.offset == 0 then finished - 1 else finished
  let back := area * (low * low / halfWord) / halfWord
  let first := if place.pass == 0 || place.slice == 3 then 0 else (place.slice + 1) * shape.quarter
  shape.index lane ((first + (area - 1 - back)) % shape.columns)

/-- Compute the block of one place. `group` holds the choosing words of the
    current group of 128 where they do not come from the data. -/
def fillPlace (shape : Shape) (place : Place) (group : Block) (memory : Array Block) :
    Array Block :=
  let column := place.slice * shape.quarter + place.offset
  let before := if column == 0 then shape.columns - 1 else column - 1
  let previous := memory.getD (shape.index place.lane before) Block.zero
  let choice := if place.independent then group.get (place.offset % 128) else previous.get 0
  let fresh := previous.compress (memory.getD (reference shape place choice) Block.zero)
  let here := shape.index place.lane column
  let fresh := if place.pass == 0 then fresh else fresh.xor (memory.getD here Block.zero)
  memory.setIfInBounds here fresh

/-- Fill the rest of a quarter of a lane, `left` places of it. -/
def fillQuarter (cost : Cost) (shape : Shape) (pass slice lane : Nat) :
    (left : Nat) → (group : Block) → Array Block → Array Block
  | 0, _, memory => memory
  | left + 1, group, memory =>
    let place : Place := ⟨pass, slice, lane, shape.quarter - (left + 1)⟩
    let group :=
      if place.independent && place.offset % 128 == 0 then
        addresses cost shape place (place.offset / 128 + 1)
      else group
    let memory :=
      if pass == 0 && slice == 0 && place.offset < 2 then memory
      else fillPlace shape place group memory
    fillQuarter cost shape pass slice lane left group memory

/-- Fill all places in order: passes, quarters, lanes. -/
def fill (cost : Cost) (shape : Shape) (memory : Array Block) : Array Block :=
  (List.range cost.passes).foldl (fun memory pass =>
    (List.range 4).foldl (fun memory slice =>
      (List.range shape.lanes).foldl (fun memory lane =>
        fillQuarter cost shape pass slice lane shape.quarter Block.zero memory) memory) memory)
    memory

/-- The first two blocks of every lane, the others zero. -/
def firstMemory (shape : Shape) (seed : Bytes) : Array Block :=
  let first (lane column : Nat) : Block :=
    Block.ofBytes (longHash 1024 (seed ++ Bytes.ofNatLE 4 column ++ Bytes.ofNatLE 4 lane))
  (List.range shape.lanes).foldl (fun memory lane =>
    (memory.setIfInBounds (shape.index lane 0) (first lane 0)).setIfInBounds
      (shape.index lane 1) (first lane 1))
    (Array.replicate (shape.lanes * shape.columns) Block.zero)

def digest (size : Nat) (cost : Cost) (passphrase salt : Bytes) : Bytes :=
  let word (n : Nat) : Bytes := Bytes.ofNatLE 4 n
  let seed := Blake2b.hash 64
    (word cost.lanes ++ word size ++ word cost.memory ++ word cost.passes ++ word 0x13 ++ word 2 ++
      word passphrase.length ++ passphrase ++ word salt.length ++ salt ++ word 0 ++ word 0)
  let shape : Shape := ⟨cost.lanes, cost.memory / (4 * cost.lanes)⟩
  let memory := fill cost shape (firstMemory shape seed)
  let last := (List.range shape.lanes).foldl (fun sum lane =>
    sum.xor (memory.getD (shape.index lane (shape.columns - 1)) Block.zero)) Block.zero
  longHash size last.toBytes

/-- The digest of a passphrase. The cost is checked before the salt. -/
def hash (size : Nat) (cost : Cost) (passphrase salt : Bytes) : Except Fault Bytes :=
  match cost.fault? with
  | some fault => .error fault
  | none => if salt.length < 8 then .error .saltTooShort else .ok (digest size cost passphrase salt)

theorem length_digest {size : Nat} (h : size ≤ 64) (cost : Cost) (passphrase salt : Bytes) :
    (digest size cost passphrase salt).length = size := by
  simp only [digest, longHash, h, if_true]
  exact Blake2b.length_hash h _

end Strongroom.Argon2id
