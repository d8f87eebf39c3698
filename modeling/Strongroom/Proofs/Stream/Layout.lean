import Strongroom.Proofs.Stream.Encoding

/-! # The layout of a stream

Where the blocks of a stream begin depends on the block size and the payload
alone, and what seals them on the random bytes that were drawn. So the records
of a payload are known before it is cut into writes: as many full blocks as
there are, and then one record with what is left.
-/

namespace Strongroom

namespace Bytes

/-- The `i`-th slice of `size` bytes; the last one may be shorter. -/
def slice (size : Nat) (bytes : Bytes) (i : Nat) : Bytes :=
  (bytes.drop (i * size)).take size

section

variable {size n i : Nat} {bytes : Bytes}

theorem length_slice (inside : (i + 1) * size ≤ bytes.length) :
    (slice size bytes i).length = size := by
  rw [Nat.succ_mul] at inside
  simp only [slice, List.length_take, List.length_drop]
  omega

theorem slice_last (pos : 0 < size) (bytes : Bytes) :
    slice size bytes (bytes.length / size) = bytes.drop (bytes.length / size * size) := by
  have parts := Nat.div_add_mod' bytes.length size
  have short := Nat.mod_lt bytes.length pos
  apply List.take_of_length_le
  rw [List.length_drop]
  omega

theorem length_slice_le : (slice size bytes i).length ≤ size :=
  List.length_take_le _ _

theorem slice_append_of_le (inside : (i + 1) * size ≤ bytes.length) (more : Bytes) :
    slice size (bytes ++ more) i = slice size bytes i := by
  rw [Nat.succ_mul] at inside
  rw [slice, List.drop_append_of_le_length (by omega), List.take_append_of_le_length, slice]
  rw [List.length_drop]
  omega

theorem slice_append_add (inside : n * size ≤ bytes.length) (more : Bytes) :
    slice size (bytes ++ more) (n + i) = slice size (bytes.drop (n * size) ++ more) i := by
  rw [slice, slice, Nat.add_mul, ← List.drop_drop, List.drop_append_of_le_length inside]

theorem take_succ_mul (size n : Nat) (bytes : Bytes) :
    bytes.take ((n + 1) * size) = bytes.take (n * size) ++ slice size bytes n := by
  rw [Nat.succ_mul, List.take_add, slice]

end

end Bytes

namespace Entropy

theorem peek_add (source : Entropy) (m n : Nat) :
    source.peek (m + n) = source.peek m ++ { source with used := source.used + m }.peek n := by
  simp only [peek, List.range_add, List.map_append, List.map_map, Function.comp_def,
    Nat.add_assoc]

/-- A random source at a later moment. -/
structure Precedes (source later : Entropy) : Prop where
  same : later.tape = source.tape
  more : source.used ≤ later.used

/-- The bytes that are drawn between two moments. -/
def drawn (source later : Entropy) : Bytes :=
  source.peek (later.used - source.used)

theorem Precedes.refl (source : Entropy) : source.Precedes source :=
  ⟨rfl, Nat.le_refl _⟩

theorem Precedes.trans {source middle later : Entropy} (first : source.Precedes middle)
    (second : middle.Precedes later) : source.Precedes later :=
  ⟨second.same.trans first.same, Nat.le_trans first.more second.more⟩

@[simp] theorem drawn_self (source : Entropy) : source.drawn source = [] := by
  simp [drawn, peek]

theorem drawn_trans {source middle later : Entropy} (first : source.Precedes middle)
    (second : middle.Precedes later) :
    source.drawn later = source.drawn middle ++ middle.drawn later := by
  have lengths : later.used - source.used =
      (middle.used - source.used) + (later.used - middle.used) := by
    have := first.more
    have := second.more
    omega
  have here : ({ source with used := source.used + (middle.used - source.used) } : Entropy) =
      middle := by
    rw [Nat.add_sub_cancel' first.more, ← first.same]
  rw [drawn, lengths, peek_add, here, drawn, drawn]

theorem precedes_add (source : Entropy) (n : Nat) :
    source.Precedes { source with used := source.used + n } :=
  ⟨rfl, Nat.le_add_right _ _⟩

@[simp] theorem drawn_add (source : Entropy) (n : Nat) :
    source.drawn { source with used := source.used + n } = source.peek n := by
  rw [drawn, Nat.add_sub_cancel_left]

end Entropy

namespace Stream

/-- The `i`-th record of a payload: its `i`-th block under the `i`-th nonce that
    was drawn. -/
def recordAt (key : DataKey) (size : Nat) (drawn payload : Bytes) (last : Bool) (i : Nat) :
    Bytes :=
  record last (Block.encryptWith key (Bytes.slice Aead.nonceSize drawn i)
    (Bytes.slice size payload i))

/-- The records of the full blocks of a payload. -/
def fullRecords (key : DataKey) (size : Nat) (drawn payload : Bytes) : List Bytes :=
  (List.range (payload.length / size)).map (recordAt key size drawn payload false)

/-- All records of a payload. The last one carries what is left behind the full
    blocks, even if it is nothing. -/
def layout (key : DataKey) (size : Nat) (drawn payload : Bytes) : List Bytes :=
  fullRecords key size drawn payload ++
    [recordAt key size drawn payload true (payload.length / size)]

section

variable {key : DataKey} {size : Nat} {drawn payload : Bytes}

@[simp] theorem length_fullRecords :
    (fullRecords key size drawn payload).length = payload.length / size := by
  simp [fullRecords]

@[simp] theorem length_layout :
    (layout key size drawn payload).length = payload.length / size + 1 := by
  simp [layout]

/-- The records of a payload that comes in two parts. -/
theorem fullRecords_append (key : DataKey) (pos : 0 < size)
    (drew : drawn.length = payload.length / size * Aead.nonceSize) (more data : Bytes) :
    fullRecords key size (drawn ++ more) (payload ++ data) =
      fullRecords key size drawn payload ++
        fullRecords key size more (payload.drop (payload.length / size * size) ++ data) := by
  have inside : payload.length / size * size ≤ payload.length := Nat.div_mul_le_self _ _
  have count : (payload ++ data).length / size = payload.length / size +
      (payload.drop (payload.length / size * size) ++ data).length / size := by
    have parts := Nat.div_add_mod' payload.length size
    have here : (payload ++ data).length = payload.length / size * size +
        (payload.drop (payload.length / size * size) ++ data).length := by
      simp only [List.length_append, List.length_drop]
      omega
    rw [here, Nat.add_comm, Nat.add_mul_div_right _ _ pos, Nat.add_comm]
  rw [fullRecords, count, List.range_add, List.map_append, List.map_map]
  congr 1
  · apply List.map_congr_left
    intro i member
    have early : (i + 1) ≤ payload.length / size := List.mem_range.1 member
    rw [recordAt, recordAt, Bytes.slice_append_of_le (drew ▸ Nat.mul_le_mul_right _ early),
      Bytes.slice_append_of_le (Nat.le_trans (Nat.mul_le_mul_right _ early) inside)]
  · apply List.map_congr_left
    intro i _
    rw [Function.comp_apply, recordAt, recordAt, Bytes.slice_append_add (drew ▸ Nat.le_refl _),
      ← drew, List.drop_length, List.nil_append, Bytes.slice_append_add inside]

theorem fullRecords_of_lt (few : payload.length < size) :
    fullRecords key size drawn payload = [] := by
  rw [fullRecords, Nat.div_eq_of_lt few, List.range_zero, List.map_nil]

theorem fullRecords_of_full (pos : 0 < size) (full : payload.length = size)
    (drew : drawn.length = Aead.nonceSize) :
    fullRecords key size drawn payload = [record false (Block.encryptWith key drawn payload)] := by
  rw [fullRecords, full, Nat.div_self pos, List.range_one, List.map_singleton, recordAt,
    Bytes.slice, Bytes.slice, Nat.zero_mul, Nat.zero_mul, List.drop_zero, List.drop_zero,
    ← drew, ← full, List.take_length, List.take_length]

/-- A record is longer than its block by a header, a nonce and a tag. -/
theorem length_recordAt {last : Bool} {i : Nat} (drew : (i + 1) * Aead.nonceSize ≤ drawn.length) :
    (recordAt key size drawn payload last i).length = (Bytes.slice size payload i).length + 32 := by
  have nonce : (Bytes.slice Aead.nonceSize drawn i).length = Aead.nonceSize :=
    Bytes.length_slice drew
  rw [recordAt, record, List.length_append, Header.length_toBytes,
    Block.length_encryptWith key nonce]
  exact Nat.add_comm 4 _

theorem ne_nil_of_mem_layout {bytes : Bytes} (member : bytes ∈ layout key size drawn payload) :
    bytes ≠ [] := by
  have headed (last : Bool) (i : Nat) : recordAt key size drawn payload last i ≠ [] := by
    intro nothing
    have length := congrArg List.length nothing
    rw [recordAt, record, List.length_append, Header.length_toBytes, List.length_nil] at length
    exact absurd length (by simp [headerSize])
  rw [layout, fullRecords, List.mem_append, List.mem_map, List.mem_singleton] at member
  rcases member with ⟨i, _, rfl⟩ | rfl
  all_goals exact headed _ _

/-- Sealing adds 32 bytes for each record, and there is one more of them than full
    blocks. -/
theorem length_flatten_layout (pos : 0 < size)
    (drew : drawn.length = (payload.length / size + 1) * Aead.nonceSize) :
    (layout key size drawn payload).flatten.length =
      payload.length + 32 * (payload.length / size + 1) := by
  have front : ∀ n ≤ payload.length / size,
      ((List.range n).map (recordAt key size drawn payload false)).flatten.length =
        n * size + 32 * n := by
    intro n
    induction n with
    | zero => simp
    | succ n ih =>
        intro inside
        have full : (Bytes.slice size payload n).length = size :=
          Bytes.length_slice
            (Nat.le_trans (Nat.mul_le_mul_right _ inside) (Nat.div_mul_le_self _ _))
        have here : (recordAt key size drawn payload false n).length = size + 32 := by
          rw [length_recordAt (drew ▸ Nat.mul_le_mul_right _ (by omega)), full]
        rw [List.range_succ, List.map_append, List.flatten_append, List.length_append,
          ih (Nat.le_of_succ_le inside), List.map_singleton, List.flatten_singleton, here,
          Nat.add_mul, Nat.one_mul]
        omega
  have parts := Nat.div_add_mod' payload.length size
  rw [layout, List.flatten_append, List.length_append, fullRecords, front _ (Nat.le_refl _),
    List.flatten_singleton, length_recordAt (Nat.le_of_eq drew.symm), Bytes.slice_last pos,
    List.length_drop]
  omega

end

namespace Encoder

/-- Sealing full blocks draws one nonce for each of them and gives their
    records. -/
theorem sealFull_eq (key : DataKey) {size : Nat} (pos : 0 < size) (le : size ≤ Block.maxSize)
    (pending : Bytes) (random : Entropy) (done : List Bytes) :
    sealFull key size pos pending random done =
      (.ok (done.reverse ++
          fullRecords key size (random.peek (pending.length / size * Aead.nonceSize)) pending),
        pending.drop (pending.length / size * size),
        { random with used := random.used + pending.length / size * Aead.nonceSize }) := by
  fun_induction sealFull key size pos pending random done with
  | case1 pending random done block full e random' failed =>
      rw [Block.encrypt_of_le key (by omega)] at failed
      cases failed
  | case2 pending random done block full encrypted random' sealed ih =>
      rw [Block.encrypt_of_le key (by omega)] at sealed
      cases sealed
      have enough : size ≤ pending.length := by
        simp only [block, List.length_take] at full
        omega
      have one : block.length / size = 1 := by rw [full, Nat.div_self pos]
      have count : pending.length / size = (pending.drop size).length / size + 1 := by
        rw [List.length_drop, ← Nat.sub_add_cancel enough, Nat.add_div_right _ pos,
          Nat.add_sub_cancel]
      have first : fullRecords key size
            (random.peek Aead.nonceSize ++ Entropy.peek (random.draw Aead.nonceSize).2
              ((pending.drop size).length / size * Aead.nonceSize)) pending =
          record false (Block.encryptWith key (random.peek Aead.nonceSize) block) ::
            fullRecords key size (Entropy.peek (random.draw Aead.nonceSize).2
              ((pending.drop size).length / size * Aead.nonceSize)) (pending.drop size) := by
        have drew : (random.peek Aead.nonceSize).length =
            block.length / size * Aead.nonceSize := by simp [one]
        have front := fullRecords_append key pos drew (Entropy.peek (random.draw Aead.nonceSize).2
            ((pending.drop size).length / size * Aead.nonceSize)) (pending.drop size)
        rw [one, Nat.one_mul, List.drop_of_length_le (Nat.le_of_eq full), List.nil_append,
          List.take_append_drop, fullRecords_of_full pos full (length_nonce random)] at front
        exact front
      have places : (List.drop size pending).length / size * Aead.nonceSize + Aead.nonceSize =
          Aead.nonceSize + (List.drop size pending).length / size * Aead.nonceSize :=
        Nat.add_comm _ _
      rw [ih, count, Nat.succ_mul, Nat.succ_mul, places, Entropy.peek_add, Nat.add_comm _ size,
        ← List.drop_drop]
      simp only [Entropy.draw] at first ⊢
      rw [first]
      simp [Nat.add_assoc]
  | case3 pending random done block notFull =>
      have few : pending.length < size := by
        simp only [block, List.length_take] at notFull
        omega
      simp [Nat.div_eq_of_lt few, fullRecords_of_lt few]

theorem write_eq (encoder : Encoder) (data : Bytes) (random : Entropy) :
    encoder.write data random =
      (.ok (fullRecords encoder.key encoder.blockSize
          (random.peek ((encoder.pending ++ data).length / encoder.blockSize * Aead.nonceSize))
          (encoder.pending ++ data)),
        { encoder with
          pending := (encoder.pending ++ data).drop
            ((encoder.pending ++ data).length / encoder.blockSize * encoder.blockSize)
          received := encoder.received + data.length },
        { random with
          used := random.used +
            (encoder.pending ++ data).length / encoder.blockSize * Aead.nonceSize }) := by
  rw [write, sealFull_eq _ _ encoder.blockSize_le]
  rfl

/-- An encoder between two writes that has drawn some bytes and handed out the
    records of the full blocks of the plaintext that it has taken. -/
structure HasMade (encoder : Encoder) (key : DataKey) (size : Nat) (drawn : Bytes)
    (made : List Bytes) (taken : Bytes) : Prop where
  own : encoder.key = key
  sized : encoder.blockSize = size
  count : encoder.received = taken.length
  drew : drawn.length = taken.length / size * Aead.nonceSize
  made : made = fullRecords key size drawn taken
  rest : encoder.pending = taken.drop (taken.length / size * size)

namespace HasMade

variable {encoder next final : Encoder} {key : DataKey} {size : Nat} {drawn taken data : Bytes}
  {made records : List Bytes} {random random' : Entropy}

theorem of_create (created : create key size = .ok encoder) :
    encoder.HasMade key size [] [] [] := by
  obtain ⟨own, sized, pending, count, _⟩ := idle_create created
  refine ⟨own, sized, count, ?_, ?_, ?_⟩
  · simp
  · simp [fullRecords]
  · rw [pending, List.drop_nil]

/-- A write hands out the records of the blocks that it fills, each sealed with
    the next bytes that are drawn. -/
theorem write (has : encoder.HasMade key size drawn made taken)
    (wrote : encoder.write data random = (.ok records, next, random')) :
    random.Precedes random' ∧
      next.HasMade key size (drawn ++ random.drawn random') (made ++ records) (taken ++ data) := by
  obtain ⟨own, rfl, count, drew, rfl, rest⟩ := has
  let n := taken.length / encoder.blockSize
  let m := (encoder.pending ++ data).length / encoder.blockSize
  have inside : n * encoder.blockSize ≤ taken.length := Nat.div_mul_le_self _ _
  have split : taken ++ data = taken.take (n * encoder.blockSize) ++ (encoder.pending ++ data) := by
    rw [rest, ← List.append_assoc, List.take_append_drop]
  have total : (taken ++ data).length / encoder.blockSize = n + m := by
    rw [split, List.length_append, List.length_take_of_le inside, Nat.add_comm,
      Nat.add_mul_div_right _ _ encoder.blockSize_pos, Nat.add_comm]
  rw [write_eq] at wrote
  cases wrote
  refine ⟨random.precedes_add _, own, rfl, ?_, ?_, ?_, ?_⟩
  · change encoder.received + data.length = _
    rw [List.length_append, count]
  · rw [total, List.length_append, drew, Entropy.drawn_add, Entropy.length_peek, ← Nat.add_mul]
  · rw [Entropy.drawn_add, fullRecords_append _ encoder.blockSize_pos drew, ← rest, own]
  · change List.drop (m * encoder.blockSize) (encoder.pending ++ data) = _
    rw [total, split, Nat.add_mul, ← List.drop_drop,
      List.drop_left' (List.length_take_of_le inside)]

theorem finish (has : encoder.HasMade key size drawn made taken) {last : Bytes}
    (finished : encoder.finish random = (.ok last, random')) :
    random.Precedes random' ∧
      made ++ [last] = layout key size (drawn ++ random.drawn random') taken ∧
      (drawn ++ random.drawn random').length = (taken.length / size + 1) * Aead.nonceSize := by
  obtain ⟨own, rfl, count, drew, rfl, rest⟩ := has
  have pending := Bytes.slice_last encoder.blockSize_pos taken
  rw [← rest] at pending
  have fits : encoder.pending.length ≤ Block.maxSize :=
    pending ▸ Nat.le_trans Bytes.length_slice_le encoder.blockSize_le
  rw [Encoder.finish, Block.encrypt_of_le encoder.key fits] at finished
  cases finished
  have nonce : Bytes.slice Aead.nonceSize (drawn ++ random.peek Aead.nonceSize)
      (taken.length / encoder.blockSize) = random.peek Aead.nonceSize := by
    have := Bytes.slice_append_add (i := 0) (Nat.le_of_eq drew.symm) (random.peek Aead.nonceSize)
    rw [Nat.add_zero, ← drew, List.drop_length, List.nil_append] at this
    rw [this, Bytes.slice, Nat.zero_mul, List.drop_zero, List.take_of_length_le]
    exact Nat.le_of_eq (length_nonce random)
  have same : fullRecords key encoder.blockSize (drawn ++ random.peek Aead.nonceSize) taken =
      fullRecords key encoder.blockSize drawn taken := by
    have short : encoder.pending.length < encoder.blockSize := by
      have parts := Nat.div_add_mod' taken.length encoder.blockSize
      have := Nat.mod_lt taken.length encoder.blockSize_pos
      rw [rest, List.length_drop]
      omega
    have parts := fullRecords_append key encoder.blockSize_pos drew
      (random.peek Aead.nonceSize) []
    rw [← rest, List.append_nil, List.append_nil, fullRecords_of_lt short, List.append_nil]
      at parts
    exact parts
  rw [Entropy.draw, Entropy.drawn_add]
  refine ⟨random.precedes_add _, ?_, ?_⟩
  · rw [layout, recordAt, nonce, pending, same, own]
  · rw [List.length_append, drew, Entropy.length_peek, Nat.succ_mul]

theorem writes (has : encoder.HasMade key size drawn made taken) {pieces : List Bytes}
    (wrote : encoder.writes pieces random = (.ok records, final, random')) :
    random.Precedes random' ∧
      final.HasMade key size (drawn ++ random.drawn random') (made ++ records)
        (taken ++ pieces.flatten) := by
  induction pieces generalizing encoder drawn made taken records random with
  | nil =>
      cases wrote
      exact ⟨.refl _, by simpa using has⟩
  | cons data rest ih =>
      rw [Encoder.writes] at wrote
      split at wrote
      · cases wrote
      · rename_i here
        split at wrote
        · cases wrote
        · rename_i others
          cases wrote
          obtain ⟨first, has⟩ := has.write here
          obtain ⟨second, has⟩ := ih has others
          refine ⟨first.trans second, ?_⟩
          rw [Entropy.drawn_trans first second]
          simpa using has

end HasMade

/-- However a payload is cut into writes, its records are those of the layout. -/
theorem encode_eq_layout (key : DataKey) {size : Nat} (pos : 0 < size) (le : size ≤ Block.maxSize)
    (pieces : List Bytes) (random : Entropy) :
    ∃ (encoder final : Encoder) (records : List Bytes) (last : Bytes) (random' random'' : Entropy),
      create key size = .ok encoder ∧
        encoder.writes pieces random = (.ok records, final, random') ∧
          final.finish random' = (.ok last, random'') ∧
            final.received = pieces.flatten.length ∧
              records ++ [last] = layout key size (random.drawn random'') pieces.flatten ∧
                (random.drawn random'').length =
                  (pieces.flatten.length / size + 1) * Aead.nonceSize := by
  have created : create key size = .ok ⟨key, size, [], 0, pos, le⟩ := by
    rw [create, dif_pos ⟨pos, le⟩]
  obtain ⟨_, _, _, _, idle⟩ := idle_create created
  obtain ⟨records, _, final, random', wrote, _, idle', _⟩ :=
    writes_carries _ idle pieces random
  obtain ⟨last, random'', finished, _⟩ := finish_whole idle' random'
  obtain ⟨first, has⟩ := (HasMade.of_create created).writes wrote
  have count := has.count
  obtain ⟨second, made, drew⟩ := has.finish finished
  simp only [List.nil_append] at made drew count
  rw [← Entropy.drawn_trans first second] at made drew
  exact ⟨_, final, records, last, random', random'', created, wrote, finished, count, made, drew⟩

end Encoder

end Stream

end Strongroom
