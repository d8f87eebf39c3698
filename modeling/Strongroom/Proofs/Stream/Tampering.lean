import Strongroom.Proofs.Stream.Layout
import Strongroom.Proofs.Stream.Serving

/-! # Streams that were cut, extended or marked anew

No tag covers a header, so whoever holds a stream may cut it, put something
behind it and change which record is marked as the last one. The framing rules
alone tell all of that: a record that is not marked needs another one behind it,
and a marked one needs the end. Nothing here depends on the cipher but that a
block opens under its own key.
-/

namespace Strongroom.Stream

open Supply

/-- The block of a record that is under its key, with its plaintext. -/
structure Opens (key : DataKey) (block plaintext : Bytes) : Prop where
  atLeast : 28 ≤ block.length
  atMost : block.length ≤ 65564
  opens : Block.decrypt key block = .ok plaintext

/-- The records of a stream: only the last one is marked, and all blocks open. -/
inductive Sealed (key : DataKey) : List Bytes → Prop where
  | last {block plaintext : Bytes} : Opens key block plaintext → Sealed key [record true block]
  | before {block plaintext : Bytes} {records : List Bytes} :
    Opens key block plaintext → Sealed key records → Sealed key (record false block :: records)

def plaintextOf (key : DataKey) (record : Bytes) : Bytes :=
  match Block.decrypt key (record.drop headerSize) with
  | .ok plaintext => plaintext
  | .error _ => []

def opened (key : DataKey) (records : List Bytes) : Bytes :=
  records.flatMap (plaintextOf key)

/-- The records that lie wholly in the first `n` bytes. -/
def within : List Bytes → Nat → List Bytes
  | [], _ => []
  | record :: records, n =>
    if record.length ≤ n then record :: within records (n - record.length) else []

/-- How records are cut short behind `n` bytes: between two of them, in a header
    or in a block. -/
def cutBehind : List Bytes → Nat → Fault
  | [], _ => .missingFinal
  | record :: records, n =>
    if record.length ≤ n then cutBehind records (n - record.length)
    else if n = 0 then .missingFinal
    else if n < headerSize then .partialHeader n
    else .cutShort (n - headerSize) (record.length - headerSize)

/-- Mark a record as the last one. -/
def setFinal : Bytes → Bytes
  | [] => []
  | byte :: bytes => (byte ||| 0x80) :: bytes

/-- Take the mark of the last record away. -/
def clearFinal : Bytes → Bytes
  | [] => []
  | byte :: bytes => (byte &&& 0x7F) :: bytes

section

variable {key : DataKey} {block plaintext : Bytes}

@[simp] theorem length_record (last : Bool) (block : Bytes) :
    (record last block).length = headerSize + block.length := by
  rw [record, List.length_append, Header.length_toBytes]

theorem drop_record (last : Bool) (block : Bytes) :
    (record last block).drop headerSize = block :=
  List.drop_left' (Header.length_toBytes _)

theorem Opens.plaintextOf (opens : Opens key block plaintext) (last : Bool) :
    plaintextOf key (record last block) = plaintext := by
  rw [Stream.plaintextOf, drop_record, opens.opens]

theorem Opens.opened_cons (opens : Opens key block plaintext) (last : Bool)
    (records : List Bytes) :
    opened key (record last block :: records) = plaintext ++ opened key records := by
  rw [opened, List.flatMap_cons, opens.plaintextOf, opened]

theorem Opens.carries (opens : Opens key block plaintext) :
    Carries key (record false block) plaintext := by
  intro rest broken
  rw [parse_record_append key false rest broken opens.atLeast opens.atMost opens.opens]
  simp

theorem Opens.trailing (opens : Opens key block plaintext) {rest : Bytes} (some : rest ≠ []) :
    parse key (record true block ++ rest) none = ⟨[], .error Fault.trailingData.toError⟩ := by
  rw [parse_record_append key true rest none opens.atLeast opens.atMost opens.opens]
  have more : rest.length ≠ 0 := fun none => some (List.length_eq_zero_iff.1 none)
  rw [if_pos rfl, if_pos more]

theorem Opens.cut (opens : Opens key block plaintext) (last : Bool) {n : Nat}
    (short : n < headerSize + block.length) :
    parse key ((record last block).take n) none =
      ⟨[], .error (cutBehind [record last block] n).toError⟩ := by
  have atLeast := opens.atLeast
  have atMost := opens.atMost
  have inside : n < 4 + block.length := short
  have size : ((record last block).take n).length = n := by
    rw [List.length_take, length_record]
    omega
  have tail : ¬ (record last block).length ≤ n := by
    rw [length_record]
    omega
  rw [parse, cutBehind, if_neg tail, size]
  by_cases nothing : n = 0
  · rw [dif_pos nothing, if_pos nothing]
    rfl
  · rw [dif_neg nothing, if_neg nothing]
    by_cases inHeader : n < headerSize
    · rw [if_pos (show n < 4 from inHeader), if_pos inHeader]
      rfl
    · have late : 4 ≤ n := Nat.le_of_not_lt inHeader
      have back : Header.ofBytes (Header.toBytes ⟨last, block.length⟩) = ⟨last, block.length⟩ :=
        Header.ofBytes_toBytes _ (by simp only [finalBit]; omega)
      have named : (Header.toBytes ⟨last, block.length⟩).toNatBE % 2 ^ 31 = block.length :=
        congrArg Header.size back
      have first : ((record last block).take n).take 4 = Header.toBytes ⟨last, block.length⟩ := by
        rw [List.take_take, Nat.min_eq_left (by omega)]
        exact List.take_left' (Header.length_toBytes _)
      have behind : (((record last block).take n).drop 4).length = n - 4 := by
        rw [List.length_drop, size]
      rw [if_neg (Nat.not_lt.2 late), if_neg inHeader]
      simp only [first, named, behind]
      rw [if_neg (by omega), if_pos (by omega), length_record, Nat.add_sub_cancel_left]
      rfl

/-- The mark adds its highest bit to the first byte of a header and leaves the
    others as they are. -/
theorem toBytes_eq_cons {size : Nat} (fits : size < finalBit) :
    ∃ high low, high < 128 ∧ ∀ last, Header.toBytes ⟨last, size⟩ =
      UInt8.ofNat (high + if last then 128 else 0) :: low := by
  have byte (m n : Nat) (same : m % 256 = n % 256) : UInt8.ofNat m = UInt8.ofNat n := by
    apply UInt8.toNat_inj.1
    simpa using same
  have small : size % finalBit = size := Nat.mod_eq_of_lt fits
  simp only [finalBit] at fits
  refine ⟨size / 256 / 256 / 256,
    [UInt8.ofNat (size / 256 / 256), UInt8.ofNat (size / 256), UInt8.ofNat size], by omega, ?_⟩
  intro last
  rw [Header.toBytes, small]
  simp only [headerSize, Bytes.ofNatBE, Bytes.ofNatLE, List.reverse_cons, List.reverse_nil,
    List.nil_append, List.cons_append, finalBit]
  rw [List.cons.injEq, List.cons.injEq, List.cons.injEq, List.cons.injEq]
  refine ⟨byte _ _ ?_, byte _ _ ?_, byte _ _ ?_, byte _ _ ?_, rfl⟩
  all_goals split <;> omega

theorem setFinal_record (last : Bool) (fits : block.length < finalBit) :
    setFinal (record last block) = record true block := by
  obtain ⟨high, low, small, header⟩ := toBytes_eq_cons fits
  have marked : ∀ high < 128, ∀ last : Bool,
      UInt8.ofNat (high + if last then 128 else 0) ||| 0x80 = UInt8.ofNat (high + 128) := by
    decide
  rw [record, record, header, header, List.cons_append, setFinal, marked high small]
  rfl

theorem clearFinal_record (last : Bool) (fits : block.length < finalBit) :
    clearFinal (record last block) = record false block := by
  obtain ⟨high, low, small, header⟩ := toBytes_eq_cons fits
  have cleared : ∀ high < 128, ∀ last : Bool,
      UInt8.ofNat (high + if last then 128 else 0) &&& 0x7F = UInt8.ofNat high := by
    decide
  rw [record, record, header, header, List.cons_append, clearFinal, cleared high small]
  rfl

end

namespace Sealed

variable {key : DataKey} {records : List Bytes} {n i : Nat}

/-- A stream that is cut carries the records before the cut. -/
theorem parse_take (stream : Sealed key records) (proper : n < records.flatten.length) :
    parse key (records.flatten.take n) none =
      ⟨opened key (within records n), .error (cutBehind records n).toError⟩ := by
  induction stream generalizing n with
  | @last block plaintext opens =>
      rw [List.flatten_singleton, length_record] at proper
      have inside : ¬ (record true block).length ≤ n := by
        rw [length_record]
        omega
      rw [List.flatten_singleton, opens.cut true proper, within, if_neg inside]
      rfl
  | @before block plaintext records opens _ ih =>
      rw [List.flatten_cons, List.length_append] at proper
      rw [List.flatten_cons]
      by_cases behind : (record false block).length ≤ n
      · rw [List.take_append, List.take_of_length_le behind, opens.carries, ih (by omega),
          within, if_pos behind, cutBehind, if_pos behind, opens.opened_cons]
        rfl
      · have inside : n < headerSize + block.length := by
          rw [length_record] at behind
          omega
        have ends : cutBehind (record false block :: records) n =
            cutBehind [record false block] n := by
          rw [cutBehind, cutBehind, if_neg behind, if_neg behind]
        rw [List.take_append_of_le_length (by omega), opens.cut false inside, within,
          if_neg behind, ends]
        rfl

/-- A stream with something behind it carries all but the last record. -/
theorem parse_append (stream : Sealed key records) {more : Bytes} (some : more ≠ []) :
    parse key (records.flatten ++ more) none =
      ⟨opened key records.dropLast, .error Fault.trailingData.toError⟩ := by
  induction stream with
  | last opens =>
      rw [List.flatten_singleton, opens.trailing some]
      rfl
  | @before block plaintext records opens rest ih =>
      have nonempty : records ≠ [] := by
        cases rest with
        | last => simp
        | before => simp
      rw [List.flatten_cons, List.append_assoc, opens.carries, ih,
        List.dropLast_cons_of_ne_nil nonempty, opens.opened_cons]
      rfl

theorem flatten_ne_nil (stream : Sealed key records) : records.flatten ≠ [] := by
  intro nothing
  have size := congrArg List.length nothing
  cases stream with
  | last => simp [headerSize] at size
  | before => simp [headerSize] at size

/-- A record before the last one that is marked ends the stream too early. -/
theorem parse_setFinal (stream : Sealed key records) (early : i + 1 < records.length) :
    parse key (records.modify i setFinal).flatten none =
      ⟨opened key (records.take i), .error Fault.trailingData.toError⟩ := by
  induction stream generalizing i with
  | last =>
      rw [List.length_singleton] at early
      omega
  | @before block plaintext records opens rest ih =>
      cases i with
      | zero =>
          have fits : block.length < finalBit := by
            have := opens.atMost
            simp only [finalBit]
            omega
          rw [List.modify_zero_cons, List.flatten_cons, setFinal_record false fits,
            opens.trailing rest.flatten_ne_nil]
          rfl
      | succ i =>
          rw [List.length_cons] at early
          rw [List.modify_succ_cons, List.flatten_cons, opens.carries, ih (by omega),
            List.take_succ_cons, opens.opened_cons]
          rfl

/-- A last record that is not marked leaves the stream without an end. -/
theorem parse_clearFinal (stream : Sealed key records) :
    parse key (records.modify (records.length - 1) clearFinal).flatten none =
      ⟨opened key records, .error Fault.missingFinal.toError⟩ := by
  induction stream with
  | @last block plaintext opens =>
      have fits : block.length < finalBit := by
        have := opens.atMost
        simp only [finalBit]
        omega
      have nothing : parse key [] none = ⟨[], .error Fault.missingFinal.toError⟩ := by
        rw [parse, dif_pos List.length_nil]
        rfl
      have alone := opens.carries [] none
      rw [List.append_nil, nothing] at alone
      rw [List.length_singleton, Nat.sub_self, List.modify_zero_cons, clearFinal_record true fits,
        List.flatten_singleton, alone, opens.opened_cons]
      rfl
  | @before block plaintext records opens rest ih =>
      obtain ⟨n, count⟩ : ∃ n, records.length = n + 1 := by
        cases rest with
        | last => exact ⟨0, rfl⟩
        | before => exact ⟨_, rfl⟩
      rw [count, Nat.add_sub_cancel] at ih
      rw [List.length_cons, Nat.add_sub_cancel, count, List.modify_succ_cons, List.flatten_cons,
        opens.carries, ih, opens.opened_cons]
      rfl

theorem append {front : List Bytes} (rest : Sealed key records)
    (marked : ∀ r ∈ front, ∃ block plaintext, Opens key block plaintext ∧ r = record false block) :
    Sealed key (front ++ records) := by
  induction front with
  | nil => exact rest
  | cons first front ih =>
      obtain ⟨block, plaintext, opens, rfl⟩ := marked first List.mem_cons_self
      exact .before opens (ih fun r member => marked r (List.mem_cons_of_mem _ member))

end Sealed

section

variable {key : DataKey} {size : Nat} {drawn payload : Bytes}

theorem opens_encryptWith (key : DataKey) {nonce plaintext : Bytes}
    (fits : plaintext.length ≤ Block.maxSize) (drew : nonce.length = Aead.nonceSize) :
    Opens key (Block.encryptWith key nonce plaintext) plaintext := by
  have length : (Block.encryptWith key nonce plaintext).length = plaintext.length + 28 :=
    Block.length_encryptWith key drew plaintext
  simp only [Block.maxSize] at fits
  exact ⟨by omega, by omega, Block.decrypt_encryptWith key drew plaintext⟩

variable (le : size ≤ Block.maxSize)
  (drew : drawn.length = (payload.length / size + 1) * Aead.nonceSize)

include le drew

/-- Each block of a layout opens to its slice of the payload. -/
theorem opens_slice {i : Nat} (inside : i ≤ payload.length / size) :
    Opens key (Block.encryptWith key (Bytes.slice Aead.nonceSize drawn i)
      (Bytes.slice size payload i)) (Bytes.slice size payload i) :=
  opens_encryptWith key (Nat.le_trans Bytes.length_slice_le le)
    (Bytes.length_slice (drew ▸ Nat.mul_le_mul_right _ (Nat.succ_le_succ inside)))

theorem sealed_layout : Sealed key (layout key size drawn payload) := by
  refine (Sealed.last (opens_slice le drew (Nat.le_refl _))).append ?_
  intro made member
  obtain ⟨i, early, rfl⟩ := List.mem_map.1 member
  exact ⟨_, _, opens_slice le drew (Nat.le_of_lt (List.mem_range.1 early)), rfl⟩

/-- The first records of a layout hold the first bytes of the payload. -/
theorem opened_take_layout (key : DataKey) {j : Nat} (early : j ≤ payload.length / size) :
    opened key ((layout key size drawn payload).take j) = payload.take (j * size) := by
  have front : (layout key size drawn payload).take j =
      (List.range j).map (recordAt key size drawn payload false) := by
    rw [layout, List.take_append_of_le_length (by simpa using early), fullRecords, ← List.map_take,
      List.take_range, Nat.min_eq_left early]
  rw [front]
  clear front
  induction j with
  | zero => simp [opened]
  | succ j ih =>
      have before := ih (by omega)
      simp only [opened] at before ⊢
      rw [List.range_succ, List.map_append, List.flatMap_append, before, List.map_singleton,
        List.flatMap_singleton, recordAt, (opens_slice le drew (by omega)).plaintextOf,
        Bytes.take_succ_mul]

theorem opened_layout (pos : 0 < size) : opened key (layout key size drawn payload) = payload := by
  have full := opened_take_layout le drew key (Nat.le_refl _)
  rw [layout, List.take_left' length_fullRecords] at full
  simp only [opened] at full ⊢
  rw [layout, List.flatMap_append, full, List.flatMap_singleton, recordAt,
    (opens_slice le drew (Nat.le_refl _)).plaintextOf, Bytes.slice_last pos,
    List.take_append_drop]

end

/-- A byte string that no reader takes for a stream: whatever source delivers it
    and whatever the limits are, some plaintext is served, and then an error of
    the framing over and over, but never the end and no other error. -/
def Rejects (key : DataKey) (bytes plaintext : Bytes) (fault : Fault) : Prop :=
  ∀ (ρ : Type) [ByteReader ρ] [Supply ρ] (r : ρ), content r = bytes → fault? r = none →
    ∀ limits : List Nat,
      let reads := (Decoder.create key r).transcript limits
      Serves ⟨plaintext, .error fault.toError⟩ reads ∧
      (plaintext.length < asked reads →
        served reads = plaintext ∧ ∃ limit, 0 < limit ∧ (limit, .error fault.toError) ∈ reads) ∧
      ∀ limit answer, (limit, answer) ∈ reads → 0 < limit →
        answer = .error fault.toError ∨ ∃ piece, piece ≠ [] ∧ answer = .ok (some piece)

/-- The answers to reads that ask for something, of a stream that does not end well. -/
theorem Serves.answers {plaintext : Bytes} {e : Error} {reads : List (Nat × Answer)}
    (serves : Serves ⟨plaintext, .error e⟩ reads) (kept : keptError e = e) {limit : Nat}
    {answer : Answer} (member : (limit, answer) ∈ reads) (pos : 0 < limit) :
    answer = .error e ∨ ∃ piece, piece ≠ [] ∧ answer = .ok (some piece) := by
  generalize same : (⟨plaintext, .error e⟩ : Reading) = reading at serves
  induction serves generalizing plaintext with
  | stop => cases member
  | refused _ ih =>
      rcases List.mem_cons.1 member with here | member
      · cases here
        omega
      · exact ih member same
  | @piece reading reads limit' piece nonempty fits serves ih =>
      rcases List.mem_cons.1 member with here | member
      · cases here
        exact .inr ⟨piece, nonempty, rfl⟩
      · obtain ⟨rest, ending⟩ := reading
        cases same
        exact ih member rfl
  | finished => cases same
  | @failed reads limit' e' pos' repeats =>
      cases same
      rcases List.mem_cons.1 member with here | member
      · cases here
        exact .inl rfl
      · have given := repeats _ member
        rw [if_neg (by omega), kept] at given
        exact .inl given

theorem rejects_of_parse {key : DataKey} {bytes plaintext : Bytes} {fault : Fault}
    (parsed : parse key bytes none = ⟨plaintext, .error fault.toError⟩) :
    Rejects key bytes plaintext fault := by
  intro ρ _ _ r delivers sound limits reads
  have serves : Serves ⟨plaintext, .error fault.toError⟩ reads := by
    have here :=
      Decoder.serves_transcript (Decoder.create key r) (Decoder.sound_create key r) limits
    rw [Decoder.remaining_create, delivers, sound, parsed] at here
    exact here
  exact ⟨serves, serves.complete, fun limit answer => serves.answers rfl⟩

/-- The framing alone tells whether the stream of an encoder was cut, extended or
    marked anew. A stream that is cut anywhere serves the records before the cut
    and then says where it was cut; one with something behind it serves all but
    the last record; one whose end is marked too early serves the records before
    the mark; and one whose last record is not marked serves the payload and
    misses its end. -/
theorem tampering_shows (key : DataKey) {blockSize : Nat} (pos : 0 < blockSize)
    (le : blockSize ≤ 65536) (pieces : List Bytes) (random : Entropy) :
    ∃ (encoder final : Encoder) (records : List Bytes) (last : Bytes)
      (random' random'' : Entropy),
      Encoder.create key blockSize = .ok encoder ∧
      encoder.writes pieces random = (.ok records, final, random') ∧
      final.finish random' = (.ok last, random'') ∧
      let payload := pieces.flatten
      let stream := records ++ [last]
      opened key stream = payload ∧
      (∀ j ≤ records.length, opened key (records.take j) = payload.take (j * blockSize)) ∧
      (∀ n < stream.flatten.length, Rejects key (stream.flatten.take n)
        (opened key (within stream n)) (cutBehind stream n)) ∧
      (∀ more ≠ [], Rejects key (stream.flatten ++ more) (opened key records) .trailingData) ∧
      (∀ i < records.length, Rejects key (stream.modify i setFinal).flatten
        (opened key (records.take i)) .trailingData) ∧
      Rejects key (stream.modify records.length clearFinal).flatten payload .missingFinal := by
  obtain ⟨encoder, final, records, last, random', random'', created, wrote, finished, _, made,
    drew⟩ := Encoder.encode_eq_layout key pos le pieces random
  refine ⟨encoder, final, records, last, random', random'', created, wrote, finished, ?_⟩
  intro payload stream
  have placed : stream = layout key blockSize (random.drawn random'') payload := made
  have stands : Sealed key stream := by
    rw [placed]
    exact sealed_layout le drew
  have all : opened key stream = payload := by
    rw [placed]
    exact opened_layout le drew pos
  have count : stream.length = records.length + 1 := by
    rw [List.length_append, List.length_singleton]
  have full : records.length = payload.length / blockSize := by
    have := congrArg List.length made
    rw [length_layout, List.length_append, List.length_singleton] at this
    exact Nat.add_right_cancel this
  refine ⟨all, ?_, ?_, ?_, ?_, ?_⟩
  · intro j early
    have := opened_take_layout le drew key (full ▸ early)
    rwa [← made, List.take_append_of_le_length early] at this
  · intro n proper
    exact rejects_of_parse (stands.parse_take proper)
  · intro more some
    have parsed := stands.parse_append some
    rw [List.dropLast_concat] at parsed
    exact rejects_of_parse parsed
  · intro i early
    have parsed := stands.parse_setFinal (i := i) (by omega)
    rw [List.take_append_of_le_length (Nat.le_of_lt early)] at parsed
    exact rejects_of_parse parsed
  · have parsed := stands.parse_clearFinal
    rw [count, Nat.add_sub_cancel, all] at parsed
    exact rejects_of_parse parsed

/-- Eleven bytes in three writes with blocks of four, of which the last record is
    not marked any more: twelve reads give them all and then miss the end. -/
theorem tampering_shows_eleven_bytes :
    let key : DataKey := ⟨List.replicate 32 7, rfl⟩
    let pieces : List Bytes := [[104, 101, 108, 108, 111, 32], [], [119, 111, 114, 108, 100]]
    0 < 4 ∧ 4 ≤ 65536 ∧ ∃ stream : List Bytes,
      let changed := (stream.modify (stream.length - 1) clearFinal).flatten
      let reads := (Decoder.create key (Source.ofPieces [changed])).transcript
        (List.replicate 12 100)
      opened key stream = pieces.flatten ∧ asked reads = 12 ∧ served reads = pieces.flatten ∧
        ∃ limit, 0 < limit ∧ (limit, .error Fault.missingFinal.toError) ∈ reads := by
  intro key pieces
  obtain ⟨_, _, records, last, _, _, _, _, _, all, _, _, _, _, cleared⟩ :=
    tampering_shows key (by decide) (by decide : 4 ≤ 65536) pieces ⟨fun _ => 0, 0⟩
  have count : (records ++ [last]).length - 1 = records.length := by
    rw [List.length_append, List.length_singleton, Nat.add_sub_cancel]
  refine ⟨by decide, by decide, records ++ [last], ?_⟩
  intro changed reads
  have twelve : asked reads = 12 := rfl
  have delivers : content (Source.ofPieces [changed]) =
      ((records ++ [last]).modify records.length clearFinal).flatten := by
    rw [Source.content_ofPieces, List.flatten_singleton]
    simp only [changed, count]
  obtain ⟨_, complete, _⟩ :=
    cleared Source (Source.ofPieces [changed]) delivers rfl (List.replicate 12 100)
  exact ⟨all, twelve, complete (by rw [twelve]; decide)⟩

end Strongroom.Stream
