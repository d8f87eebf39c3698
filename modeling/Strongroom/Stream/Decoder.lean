import Strongroom.Stream.Reader
import Strongroom.Stream.Record

/-! # Decoding a stream

A decoder reads records from a source and serves the plaintext in pieces of the
caller's size. It reports the end only after the last record, with nothing
behind it. After the first error it stays with that error.
-/

namespace Strongroom.Stream

variable {ρ : Type} [ByteReader ρ]

/-- Read until `want` more bytes are there or the source ends; `done` holds what
    came before, newest first. -/
def readFull (r : ρ) (want : Nat) (done : List Bytes) : Except Error Bytes × ρ :=
  if _more : want = 0 then (.ok done.reverse.flatten, r)
  else
    match ByteReader.read r want with
    | (.error text, r) => (.error (.storage text), r)
    | (.ok [], r) => (.ok done.reverse.flatten, r)
    | (.ok (byte :: bytes), r) =>
      readFull r (want - (byte :: bytes).length) ((byte :: bytes) :: done)
termination_by want
decreasing_by
  simp only [List.length_cons]
  omega

/-- The plaintext of the next record, and whether it is the last. -/
def nextRecord (key : DataKey) (r : ρ) : Except Error (Bytes × Bool) × ρ :=
  match readFull r headerSize [] with
  | (.error e, r) => (.error e, r)
  | (.ok bytes, r) =>
    if bytes.length = 0 then (.error Fault.missingFinal.toError, r)
    else if bytes.length < headerSize then
      (.error (Fault.partialHeader bytes.length).toError, r)
    else
      let header := Header.ofBytes bytes
      if !header.admissible then (.error (Fault.blockLength header.size).toError, r)
      else
        match readFull r header.size [] with
        | (.error e, r) => (.error e, r)
        | (.ok block, r) =>
          if block.length < header.size then
            (.error (Fault.cutShort block.length header.size).toError, r)
          else
            match Block.decrypt key block with
            | .error e => (.error e, r)
            | .ok plaintext =>
              if header.last then
                match readFull r 1 [] with
                | (.error e, r) => (.error e, r)
                | (.ok [], r) => (.ok (plaintext, true), r)
                | (.ok _, r) => (.error Fault.trailingData.toError, r)
              else (.ok (plaintext, false), r)

inductive Progress where
  /-- More records have to come. -/
  | reading
  /-- The last record is decoded and nothing follows it. -/
  | finished
  /-- An error that is given to every further read. -/
  | failed (e : Error)
  deriving Repr, DecidableEq

structure Decoder (ρ : Type) where
  key : DataKey
  reader : ρ
  /-- Plaintext decoded and not served yet. -/
  ready : Bytes
  progress : Progress
  /-- Bytes of plaintext decoded so far. -/
  decoded : Nat

/-- The error that a decoder keeps: its own kinds as they are, any other as an
    error of the store. -/
def keptError : Error → Error
  | .authentication => .authentication
  | .framing detail => .framing detail
  | e => .storage e.message

theorem left_readFull (r : ρ) (want : Nat) (done : List Bytes) (bytes : Bytes) :
    (readFull r want done).1 = .ok bytes →
      ByteReader.left (readFull r want done).2 + bytes.length ≤
        ByteReader.left r + done.flatten.length := by
  have flat : ∀ xs : List Bytes, xs.reverse.flatten.length = xs.flatten.length := by
    intro xs
    simp [List.length_flatten]
  fun_induction readFull r want done with
  | case1 r done => rintro ⟨⟩; simp [flat]
  | case2 => rintro ⟨⟩
  | case3 r want done _ r' read =>
    rintro ⟨⟩
    have := ByteReader.left_read r want [] (by rw [read])
    rw [read] at this
    simp only [flat]
    simp only [List.length_nil] at this
    omega
  | case4 r want done _ byte rest r' read ih =>
    intro h
    have := ByteReader.left_read r want _ (by rw [read])
    rw [read] at this
    have := ih h
    simp only [List.flatten_cons, List.length_append] at this
    simp only at *
    omega

theorem left_nextRecord (key : DataKey) (r : ρ) (plaintext : Bytes) (last : Bool) :
    (nextRecord key r).1 = .ok (plaintext, last) →
      ByteReader.left (nextRecord key r).2 < ByteReader.left r := by
  unfold nextRecord
  have first := left_readFull r headerSize []
  split
  · rintro ⟨⟩
  · rename_i header r₁ read
    rw [read] at first
    have first := first header rfl
    simp only [List.flatten_nil, List.length_nil] at first
    split
    · rintro ⟨⟩
    · split
      · rintro ⟨⟩
      · dsimp only
        split
        · rintro ⟨⟩
        · have second := left_readFull r₁ (Header.ofBytes header).size []
          split
          · rintro ⟨⟩
          · rename_i block r₂ read
            rw [read] at second
            have second := second block rfl
            simp only [List.flatten_nil, List.length_nil] at second
            split
            · rintro ⟨⟩
            · split
              · rintro ⟨⟩
              · split
                · have third := left_readFull r₂ 1 []
                  split
                  · rintro ⟨⟩
                  · rename_i r₃ read
                    rw [read] at third
                    have third := third [] rfl
                    simp only [List.flatten_nil, List.length_nil] at third
                    intro _
                    dsimp only
                    omega
                  · rintro ⟨⟩
                · intro _
                  dsimp only
                  omega

namespace Decoder

def create (key : DataKey) (reader : ρ) : Decoder ρ :=
  ⟨key, reader, [], .reading, 0⟩

/-- How much a decoder may still have to read. -/
def work (d : Decoder ρ) : Nat :=
  match d.progress with
  | .reading => ByteReader.left d.reader + 1
  | _ => 0

/-- Serve at most `limit` bytes, decoding records until there are some. -/
def serve (d : Decoder ρ) (limit : Nat) : Except Error (Option Bytes) × Decoder ρ :=
  match _stands : d.progress with
  | .failed e => (.error e, d)
  | .finished =>
    match d.ready with
    | [] => (.ok none, d)
    | ready => (.ok (some (ready.take limit)), { d with ready := ready.drop limit })
  | .reading =>
    match d.ready with
    | [] =>
      match _decoded : nextRecord d.key d.reader with
      | (.error e, reader) => (.error e, { d with reader, progress := .failed (keptError e) })
      | (.ok (plaintext, last), reader) =>
        serve
          { d with
            reader
            ready := plaintext
            progress := if last then .finished else .reading
            decoded := d.decoded + plaintext.length }
          limit
    | ready => (.ok (some (ready.take limit)), { d with ready := ready.drop limit })
termination_by d.work
decreasing_by
  have := left_nextRecord d.key d.reader plaintext last (by rw [_decoded])
  rw [_decoded] at this
  simp only [work, _stands]
  cases last
  · simpa using this
  · simp

/-- Read between one and `limit` bytes of plaintext, or nothing at the end. A
    read of no bytes is refused and changes nothing. -/
def read (d : Decoder ρ) (limit : Nat) : Except Error (Option Bytes) × Decoder ρ :=
  if limit = 0 then (.error (.invalidInput "read length must be at least 1"), d)
  else d.serve limit

end Decoder

end Strongroom.Stream
