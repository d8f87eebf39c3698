import Strongroom.Bytes

/-! # Sources of bytes

A source is read with a limit and gives at most that many bytes, fewer when it
pleases and none only at its end. It may also fail, and go on after that.
-/

namespace Strongroom.Stream

class ByteReader (ρ : Type) where
  /-- Read at most as many bytes as asked for. None are given only at the end,
      or when none are asked for. A failure is a text. -/
  read : ρ → Nat → Except String Bytes × ρ
  /-- A bound on the bytes still to come. -/
  left : ρ → Nat
  /-- What has been read no longer comes. -/
  left_read : ∀ (r : ρ) (n : Nat) (bytes : Bytes),
    (read r n).1 = .ok bytes → left (read r n).2 + bytes.length ≤ left r

/-- One thing that a source hands out. -/
inductive Piece where
  | data (bytes : Bytes)
  | fault (text : String)
  deriving Repr, DecidableEq

/-- A source given by the pieces it hands out. -/
abbrev Source := List Piece

namespace Source

/-- Read from the first piece that is not empty. -/
def read : Source → Nat → Except String Bytes × Source
  | [], _ => (.ok [], [])
  | .fault text :: rest, _ => (.error text, rest)
  | .data bytes :: rest, n =>
    match bytes with
    | [] => read rest n
    | bytes =>
      match bytes.drop n with
      | [] => (.ok bytes, rest)
      | kept => (.ok (bytes.take n), .data kept :: rest)

def size : Source → Nat
  | [] => 0
  | .fault _ :: rest => size rest
  | .data bytes :: rest => bytes.length + size rest

theorem size_read (source : Source) (n : Nat) (bytes : Bytes) :
    (source.read n).1 = .ok bytes → size (source.read n).2 + bytes.length ≤ size source := by
  fun_induction read source n with
  | case1 => rintro ⟨⟩; simp
  | case2 => rintro ⟨⟩
  | case3 rest n ih => intro h; simpa [size] using ih h
  | case4 rest n data _ none_left => rintro ⟨⟩; simp [size]; omega
  | case5 rest n data _ _ =>
    rintro ⟨⟩
    simp only [size, List.length_take, List.length_drop]
    omega

instance : ByteReader Source where
  read := read
  left := size
  left_read := size_read

end Source

/-- A source read through a buffer of `capacity` bytes. -/
structure Buffered (ρ : Type) where
  capacity : Nat
  /-- Read from the source but not asked for yet. -/
  held : Bytes
  inner : ρ

namespace Buffered

variable {ρ : Type} [ByteReader ρ]

/-- Give what is held; when nothing is, fill the buffer first, or go past it
    for a read that would empty it anyway. -/
def read (r : Buffered ρ) (n : Nat) : Except String Bytes × Buffered ρ :=
  if r.held.isEmpty then
    if r.capacity ≤ n then
      let (result, inner) := ByteReader.read r.inner n
      (result, { r with inner })
    else
      match ByteReader.read r.inner r.capacity with
      | (.error text, inner) => (.error text, { r with inner })
      | (.ok bytes, inner) => (.ok (bytes.take n), { r with held := bytes.drop n, inner })
  else (.ok (r.held.take n), { r with held := r.held.drop n })

/-- A bound on the bytes still to come. -/
def left (r : Buffered ρ) : Nat :=
  r.held.length + ByteReader.left r.inner

theorem left_read (r : Buffered ρ) (n : Nat) (bytes : Bytes) :
    (r.read n).1 = .ok bytes → (r.read n).2.left + bytes.length ≤ r.left := by
  unfold read
  split
  · rename_i nothing
    have nothing : r.held = [] := List.isEmpty_iff.1 nothing
    split
    · intro h
      have := ByteReader.left_read r.inner n bytes h
      simpa [left, nothing] using this
    · cases result : ByteReader.read r.inner r.capacity with
      | mk outcome inner =>
        cases outcome with
        | error text => rintro ⟨⟩
        | ok all =>
          rintro ⟨⟩
          have := ByteReader.left_read r.inner r.capacity all (by rw [result])
          rw [result] at this
          simp only [left, nothing, List.length_drop, List.length_take, List.length_nil]
          simp only at this
          omega
  · rintro ⟨⟩
    simp only [left, List.length_drop, List.length_take]
    omega

instance : ByteReader (Buffered ρ) where
  read := read
  left := left
  left_read := left_read

end Buffered

end Strongroom.Stream
