import Strongroom.Proofs.Stream.Layout

/-! # A stream is the same however its payload is cut

The reference encoding of a payload speaks of no encoder and of no writes: the
full blocks one after the other, what is left over behind them, and a nonce for
each from the random source. An encoder gives just these bytes, in whatever
pieces the payload comes, and no step on the way can fail.
-/

namespace Strongroom

namespace Entropy

/-- The nonce of number `i`: the result of the `i`-th draw of a nonce, where the
    first one counts as number 0. -/
def nonce (random : Entropy) : Nat → Bytes
  | 0 => (random.draw Aead.nonceSize).1
  | i + 1 => nonce (random.draw Aead.nonceSize).2 i

theorem nonce_eq_peek (random : Entropy) (i : Nat) :
    random.nonce i =
      ({ random with used := random.used + i * Aead.nonceSize } : Entropy).peek Aead.nonceSize := by
  induction i generalizing random with
  | zero => simp [nonce, draw]
  | succ i ih =>
      have place : random.used + Aead.nonceSize + i * Aead.nonceSize =
          random.used + (i + 1) * Aead.nonceSize := by
        rw [Nat.succ_mul]
        omega
      rw [nonce, ih, draw, place]

/-- The nonces stand one behind the other in the bytes that are drawn. -/
theorem slice_peek (random : Entropy) {n i : Nat} (early : i < n) :
    Bytes.slice Aead.nonceSize (random.peek (n * Aead.nonceSize)) i = random.nonce i := by
  obtain ⟨more, rfl⟩ := Nat.exists_eq_add_of_lt early
  have parts : (i + more + 1) * Aead.nonceSize =
      i * Aead.nonceSize + (Aead.nonceSize + more * Aead.nonceSize) := by
    rw [Nat.add_mul, Nat.add_mul]
    omega
  rw [parts, peek_add, peek_add, nonce_eq_peek, Bytes.slice, List.drop_left' (length_peek _ _),
    List.take_left' (length_peek _ _)]

theorem Precedes.eq_of_length {source later : Entropy} (before : source.Precedes later) {n : Nat}
    (drew : (source.drawn later).length = n) :
    later = { source with used := source.used + n } ∧ source.drawn later = source.peek n := by
  have count : later.used - source.used = n := by rw [← drew, drawn, length_peek]
  have more := before.more
  refine ⟨?_, by rw [drawn, count]⟩
  obtain ⟨tape, used⟩ := later
  obtain rfl : tape = source.tape := before.same
  congr
  exact (Nat.add_sub_cancel' more).symm.trans (congrArg _ count)

end Entropy

namespace Stream

/-- A record with every byte written out: four of the header, which hold the mark
    of the last record and the length of the block, then the nonce, then the
    enciphered bytes with their tag. -/
def referenceRecord (key : DataKey) (nonce plaintext : Bytes) (last : Bool) : Bytes :=
  Bytes.ofNatBE 4 ((if last then 0x80000000 else 0) ||| (28 + plaintext.length)) ++ nonce ++
    Aead.encrypt key.bytes nonce plaintext

/-- The reference encoding of a payload: a record for each full block, and the
    last one for the bytes behind them, if any. -/
def reference (key : DataKey) (size : Nat) (random : Entropy) (payload : Bytes) : List Bytes :=
  let full := payload.length / size
  (List.range full).map
      (fun i => referenceRecord key (random.nonce i) (Bytes.slice size payload i) false) ++
    [referenceRecord key (random.nonce full) (payload.drop (full * size)) true]

section

variable {key : DataKey} {size : Nat} {random : Entropy} {payload : Bytes}

@[simp] theorem length_reference :
    (reference key size random payload).length = payload.length / size + 1 := by
  simp [reference]

theorem record_eq_referenceRecord (key : DataKey) {nonce plaintext : Bytes} (last : Bool)
    (drawn : nonce.length = Aead.nonceSize) (fits : plaintext.length ≤ Block.maxSize) :
    record last (Block.encryptWith key nonce plaintext) =
      referenceRecord key nonce plaintext last := by
  have size : (Block.encryptWith key nonce plaintext).length = 28 + plaintext.length := by
    rw [Block.length_encryptWith key drawn, Nat.add_comm]
    rfl
  have low : 28 + plaintext.length < finalBit :=
    Nat.lt_of_le_of_lt (Nat.add_le_add_left fits 28) (by decide)
  have header : (28 + plaintext.length) % finalBit + (if last then finalBit else 0) =
      (if last then 0x80000000 else 0) ||| (28 + plaintext.length) := by
    rw [Nat.mod_eq_of_lt low]
    cases last with
    | false => exact (Nat.zero_or _).symm
    | true =>
        -- The length leaves the highest bit free, so marking it is an addition.
        have marked := Nat.two_pow_add_eq_or_of_lt (i := 31) low 1
        rw [Nat.mul_one, Nat.add_comm] at marked
        exact marked
  rw [record, Header.toBytes, size, header, referenceRecord, Block.encryptWith, List.append_assoc]
  rfl

/-- The layout of a payload under the bytes that are drawn first is its reference
    encoding. -/
theorem layout_eq_reference (pos : 0 < size) (le : size ≤ Block.maxSize) :
    layout key size (random.peek ((payload.length / size + 1) * Aead.nonceSize)) payload =
      reference key size random payload := by
  have here : ∀ (last : Bool) (i : Nat), i < payload.length / size + 1 →
      recordAt key size (random.peek ((payload.length / size + 1) * Aead.nonceSize)) payload
          last i =
        referenceRecord key (random.nonce i) (Bytes.slice size payload i) last := by
    intro last i early
    rw [recordAt, random.slice_peek early, record_eq_referenceRecord]
    · rw [Entropy.nonce_eq_peek, Entropy.length_peek]
    · exact Nat.le_trans Bytes.length_slice_le le
  rw [layout, fullRecords, reference, here true _ (Nat.lt_succ_self _), Bytes.slice_last pos]
  congr 1
  apply List.map_congr_left
  intro i member
  exact here false i (Nat.lt_succ_of_lt (List.mem_range.1 member))

/-- The records of what has come so far are the first ones of the whole payload. -/
theorem take_reference (le : size ≤ Block.maxSize) (start rest : Bytes) :
    fullRecords key size (random.peek (start.length / size * Aead.nonceSize)) start =
      (reference key size random (start ++ rest)).take (start.length / size) := by
  have few : start.length / size ≤ (start ++ rest).length / size := by
    rw [List.length_append]
    exact Nat.div_le_div_right (Nat.le_add_right _ _)
  rw [reference, List.take_append_of_le_length (by simpa using few), ← List.map_take,
    List.take_range, Nat.min_eq_left few, fullRecords]
  apply List.map_congr_left
  intro i member
  have early : i < start.length / size := List.mem_range.1 member
  have inside : (i + 1) * size ≤ start.length :=
    Nat.le_trans (Nat.mul_le_mul_right _ early) (Nat.div_mul_le_self _ _)
  rw [recordAt, random.slice_peek early, Bytes.slice_append_of_le inside, record_eq_referenceRecord]
  · rw [Entropy.nonce_eq_peek, Entropy.length_peek]
  · exact Nat.le_trans Bytes.length_slice_le le

end

namespace Encoder

/-- Write some pieces and finish: the whole stream. -/
def encode (encoder : Encoder) (pieces : List Bytes) (random : Entropy) :
    Except Error Bytes × Entropy :=
  match encoder.writes pieces random with
  | (.error e, _, random) => (.error e, random)
  | (.ok records, encoder, random) =>
    match encoder.finish random with
    | (.error e, random) => (.error e, random)
    | (.ok last, random) => (.ok (records.flatten ++ last), random)

section

variable {key : DataKey} {size : Nat} {encoder : Encoder}

/-- After some writes all records of full blocks are out, and no other. -/
theorem writes_eq (created : create key size = .ok encoder) (random : Entropy)
    (pieces : List Bytes) (rest : Bytes) :
    ∃ (midway : Encoder) (random' : Entropy),
      encoder.writes pieces random =
        (.ok ((reference key size random (pieces.flatten ++ rest)).take
          (pieces.flatten.length / size)), midway, random') ∧
        midway.received = pieces.flatten.length := by
  have has := HasMade.of_create created
  obtain ⟨_, sized, _, _, idle⟩ := idle_create created
  obtain ⟨records, _, midway, random', wrote, _⟩ := writes_carries encoder idle pieces random
  obtain ⟨before, has⟩ := has.writes wrote
  simp only [List.nil_append] at has
  have same := (before.eq_of_length has.drew).2
  refine ⟨midway, random', ?_, has.count⟩
  rw [wrote, has.made, same, take_reference (sized ▸ encoder.blockSize_le)]

/-- The whole stream is the reference encoding, and costs one draw for each record. -/
theorem encode_eq (created : create key size = .ok encoder) (random : Entropy)
    (pieces : List Bytes) :
    encoder.encode pieces random =
      (.ok (reference key size random pieces.flatten).flatten,
        { random with
          used := random.used + (pieces.flatten.length / size + 1) * Aead.nonceSize }) := by
  have has := HasMade.of_create created
  obtain ⟨_, sized, _, _, idle⟩ := idle_create created
  obtain ⟨records, _, midway, random', wrote, _, idle', _⟩ :=
    writes_carries encoder idle pieces random
  obtain ⟨last, random'', finished, _⟩ := finish_whole idle' random'
  obtain ⟨first, has⟩ := has.writes wrote
  obtain ⟨second, made, drew⟩ := has.finish finished
  simp only [List.nil_append] at made drew
  rw [← Entropy.drawn_trans first second] at made drew
  obtain ⟨state, same⟩ := (first.trans second).eq_of_length drew
  have bytes : records.flatten ++ last = (reference key size random pieces.flatten).flatten := by
    rw [← layout_eq_reference (sized ▸ encoder.blockSize_pos) (sized ▸ encoder.blockSize_le),
      ← same, ← made, List.flatten_append, List.flatten_singleton]
  rw [encode, wrote]
  simp only [finished]
  rw [bytes, ← state]

/-- An encoder never fails, and what it gives depends on the payload alone. After
    any of the writes the records that are out are the first ones of the reference
    encoding, as many as there are full blocks, and the count of plaintext is that
    of the bytes written. At the end the stream is the reference encoding, byte for
    byte. So a payload that is cut in two ways gives one stream, at the same cost in
    random bytes. -/
theorem encoding_ignores_chunking (created : create key size = .ok encoder) (random : Entropy) :
    (∀ (pieces : List Bytes) (n : Nat), ∃ (midway : Encoder) (random' : Entropy),
      encoder.writes (pieces.take n) random =
        (.ok ((reference key size random pieces.flatten).take
          ((pieces.take n).flatten.length / size)), midway, random') ∧
        midway.received = (pieces.take n).flatten.length) ∧
    (∀ pieces : List Bytes,
      encoder.encode pieces random =
        (.ok (reference key size random pieces.flatten).flatten,
          { random with
            used := random.used + (pieces.flatten.length / size + 1) * Aead.nonceSize })) ∧
    (∀ pieces others : List Bytes, pieces.flatten = others.flatten →
      encoder.encode pieces random = encoder.encode others random) := by
  refine ⟨?_, encode_eq created random, ?_⟩
  · intro pieces n
    have whole : (pieces.take n).flatten ++ (pieces.drop n).flatten = pieces.flatten := by
      rw [← List.flatten_append, List.take_append_drop]
    rw [← whole]
    exact writes_eq created random (pieces.take n) _
  · intro pieces others same
    rw [encode_eq created, encode_eq created, same]

/-- Blocks of two bytes: three bytes in one write, and in three writes of which one
    is empty. -/
theorem encoding_of_three_bytes :
    let key : DataKey := ⟨List.replicate 32 7, rfl⟩
    ∃ encoder : Encoder, create key 2 = .ok encoder ∧
      [[1, 2, 3]].flatten = [[1], [], [2, 3]].flatten ∧
        encoder.encode [[1, 2, 3]] ⟨fun _ => 0, 0⟩ =
          encoder.encode [[1], [], [2, 3]] ⟨fun _ => 0, 0⟩ := by
  intro key
  have created : create key 2 = .ok ⟨key, 2, [], 0, by decide, by decide⟩ := rfl
  exact ⟨_, created, rfl,
    (encoding_ignores_chunking created ⟨fun _ => 0, 0⟩).2.2 [[1, 2, 3]] [[1], [], [2, 3]] rfl⟩

end

end Encoder

end Stream

end Strongroom
