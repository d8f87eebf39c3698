import Strongroom.Proofs.Stream.Grammar
import Strongroom.Stream.Encoder

/-! # What an encoder hands out

Records that are not the last one carry their plaintext to whatever follows
them. An encoder between two writes has handed out records that carry all it
was given but what is pending, so where the writes were cut does not matter;
the last record carries the rest and ends the stream.
-/

namespace Strongroom.Stream

/-- Bytes that stand for some plaintext in front of any stream. -/
def Carries (key : DataKey) (bytes plaintext : Bytes) : Prop :=
  ∀ (rest : Bytes) (broken : Option String),
    parse key (bytes ++ rest) broken = (parse key rest broken).after plaintext

namespace Carries

theorem nil (key : DataKey) : Carries key [] [] := fun _ _ => rfl

theorem append {key : DataKey} {bytes more plaintext further : Bytes}
    (first : Carries key bytes plaintext) (second : Carries key more further) :
    Carries key (bytes ++ more) (plaintext ++ further) := by
  intro rest broken
  rw [List.append_assoc, first, second, Reading.after_after]

end Carries

/-- Bytes that are a whole stream. -/
def Whole (key : DataKey) (bytes plaintext : Bytes) : Prop :=
  parse key bytes none = ⟨plaintext, .ok ()⟩

theorem Whole.after {key : DataKey} {bytes more plaintext further : Bytes}
    (last : Whole key more further) (first : Carries key bytes plaintext) :
    Whole key (bytes ++ more) (plaintext ++ further) := by
  rw [Whole, first, last]
  rfl

theorem length_nonce (random : Entropy) : (random.peek Aead.nonceSize).length = Aead.nonceSize :=
  random.length_peek _

section Sealed

variable (key : DataKey) {plaintext nonce : Bytes} (fits : plaintext.length ≤ Block.maxSize)
  (drawn : nonce.length = Aead.nonceSize)

include fits drawn

theorem parse_sealed_append (last : Bool) (rest : Bytes) (broken : Option String) :
    parse key (record last (Block.encryptWith key nonce plaintext) ++ rest) broken =
      if last then
        if rest.length ≠ 0 then ⟨[], .error Fault.trailingData.toError⟩
        else
          match broken with
          | some text => ⟨[], .error (.storage text)⟩
          | none => ⟨plaintext, .ok ()⟩
      else (parse key rest broken).after plaintext := by
  have size : (Block.encryptWith key nonce plaintext).length = plaintext.length + 28 :=
    Block.length_encryptWith key drawn plaintext
  simp only [Block.maxSize] at fits
  exact parse_record_append key last rest broken (by omega) (by omega)
    (Block.decrypt_encryptWith key drawn plaintext)

theorem carries_sealed :
    Carries key (record false (Block.encryptWith key nonce plaintext)) plaintext := by
  intro rest broken
  rw [parse_sealed_append key fits drawn]
  simp

theorem whole_sealed :
    Whole key (record true (Block.encryptWith key nonce plaintext)) plaintext := by
  have alone := parse_sealed_append key fits drawn true [] none
  rw [List.append_nil] at alone
  rw [Whole, alone]
  simp

end Sealed

namespace Encoder

/-- Sealing full blocks does not fail. What it hands out, behind what was done
    before, carries everything but less than a block. -/
theorem sealFull_carries (key : DataKey) {size : Nat} (pos : 0 < size) (le : size ≤ Block.maxSize)
    (pending : Bytes) (random : Entropy) (done : List Bytes) :
    ∃ (records : List Bytes) (left full : Bytes) (random' : Entropy),
      sealFull key size pos pending random done = (.ok (done.reverse ++ records), left, random') ∧
        left.length < size ∧ full ++ left = pending ∧ Carries key records.flatten full := by
  fun_induction sealFull key size pos pending random done with
  | case1 pending random done block full e random' failed =>
      rw [Block.encrypt_of_le key (by omega)] at failed
      cases failed
  | case2 pending random done block full encrypted random' sealed ih =>
      rw [Block.encrypt_of_le key (by omega)] at sealed
      cases sealed
      obtain ⟨records, left, more, random', result, short, split, carries⟩ := ih
      refine ⟨record false (Block.encryptWith key (random.peek Aead.nonceSize) block) :: records,
        left, block ++ more, random', ?_, short, ?_, ?_⟩
      · rw [result, List.reverse_cons, List.append_assoc, List.singleton_append]
      · rw [List.append_assoc, split]
        exact List.take_append_drop size pending
      · rw [List.flatten_cons]
        exact (carries_sealed key (by omega) (length_nonce random)).append carries
  | case3 pending random done block notFull =>
      refine ⟨[], pending, [], random, by simp, ?_, rfl, .nil key⟩
      simp only [block, List.length_take] at notFull
      omega

/-- An encoder holds less than a block between two writes. -/
def IsIdle (encoder : Encoder) : Prop :=
  encoder.pending.length < encoder.blockSize

theorem idle_create {key : DataKey} {blockSize : Nat} {encoder : Encoder}
    (created : create key blockSize = .ok encoder) :
    encoder.key = key ∧ encoder.blockSize = blockSize ∧ encoder.pending = [] ∧
      encoder.received = 0 ∧ encoder.IsIdle := by
  unfold create at created
  split at created
  · rename_i bounds
    cases created
    exact ⟨rfl, rfl, rfl, rfl, bounds.1⟩
  · cases created

/-- A write does not fail. Its records carry what was pending and the new piece,
    but for what is pending now. -/
theorem write_carries (encoder : Encoder) (data : Bytes) (random : Entropy) :
    ∃ (records : List Bytes) (full : Bytes) (next : Encoder) (random' : Entropy),
      encoder.write data random = (.ok records, next, random') ∧
        next.key = encoder.key ∧ next.IsIdle ∧
          next.received = encoder.received + data.length ∧
            full ++ next.pending = encoder.pending ++ data ∧
              Carries encoder.key records.flatten full := by
  obtain ⟨records, left, full, random', result, short, split, carries⟩ :=
    sealFull_carries encoder.key encoder.blockSize_pos encoder.blockSize_le
      (encoder.pending ++ data) random []
  refine ⟨records, full,
    { encoder with pending := left, received := encoder.received + data.length }, random', ?_,
    rfl, short, rfl, split, carries⟩
  rw [write, result]
  rfl

theorem finish_whole {encoder : Encoder} (idle : encoder.IsIdle) (random : Entropy) :
    ∃ (last : Bytes) (random' : Entropy),
      encoder.finish random = (.ok last, random') ∧ Whole encoder.key last encoder.pending := by
  have fits : encoder.pending.length ≤ Block.maxSize := by
    have := encoder.blockSize_le
    unfold IsIdle at idle
    omega
  refine ⟨_, (random.draw Aead.nonceSize).2, ?_,
    whole_sealed encoder.key fits (length_nonce random)⟩
  rw [finish, Block.encrypt_of_le encoder.key fits]

def writes (encoder : Encoder) :
    List Bytes → Entropy → Except Error (List Bytes) × Encoder × Entropy
  | [], random => (.ok [], encoder, random)
  | data :: rest, random =>
    match encoder.write data random with
    | (.error e, encoder, random) => (.error e, encoder, random)
    | (.ok records, encoder, random) =>
      match encoder.writes rest random with
      | (.error e, encoder, random) => (.error e, encoder, random)
      | (.ok more, encoder, random) => (.ok (records ++ more), encoder, random)

theorem writes_carries (encoder : Encoder) (idle : encoder.IsIdle) (pieces : List Bytes)
    (random : Entropy) :
    ∃ (records : List Bytes) (full : Bytes) (next : Encoder) (random' : Entropy),
      encoder.writes pieces random = (.ok records, next, random') ∧
        next.key = encoder.key ∧ next.IsIdle ∧
          next.received = encoder.received + pieces.flatten.length ∧
            full ++ next.pending = encoder.pending ++ pieces.flatten ∧
              Carries encoder.key records.flatten full := by
  induction pieces generalizing encoder random with
  | nil => exact ⟨[], [], encoder, random, rfl, rfl, idle, rfl, by simp, .nil encoder.key⟩
  | cons data rest ih =>
      obtain ⟨first, full, next, random', wrote, key, idle, count, split, carries⟩ :=
        encoder.write_carries data random
      obtain ⟨more, further, final, random'', others, key', idle', count', split', carries'⟩ :=
        ih next idle random'
      refine ⟨first ++ more, full ++ further, final, random'', ?_, key'.trans key, idle', ?_, ?_,
        ?_⟩
      · rw [writes, wrote]
        simp only [others]
      · rw [count', count, List.flatten_cons, List.length_append]
        omega
      · rw [List.append_assoc, split', ← List.append_assoc, split, List.flatten_cons,
          List.append_assoc]
      · rw [List.flatten_append]
        exact carries.append (key ▸ carries')

/-- An encoder between two writes that has handed out some bytes for the plaintext
    that it has taken. -/
structure HasSent (encoder : Encoder) (key : DataKey) (sent taken : Bytes) : Prop where
  own : encoder.key = key
  idle : encoder.IsIdle
  count : encoder.received = taken.length
  carries : ∃ full, full ++ encoder.pending = taken ∧ Carries key sent full

namespace HasSent

variable {key : DataKey} {encoder next : Encoder} {sent taken data : Bytes}
  {random random' : Entropy}

theorem of_create {blockSize : Nat} (created : create key blockSize = .ok encoder) :
    encoder.HasSent key [] [] := by
  obtain ⟨same, _, pending, count, idle⟩ := idle_create created
  exact ⟨same, idle, count, [], pending, .nil key⟩

theorem write (has : encoder.HasSent key sent taken) {records : List Bytes}
    (wrote : encoder.write data random = (.ok records, next, random')) :
    next.HasSent key (sent ++ records.flatten) (taken ++ data) := by
  obtain ⟨full, split, carries⟩ := has.carries
  obtain ⟨records', more, next', _, wrote', same, idle, count, split', carries'⟩ :=
    encoder.write_carries data random
  rw [wrote] at wrote'
  cases wrote'
  refine ⟨same.trans has.own, idle, ?_, full ++ more, ?_, carries.append (has.own ▸ carries')⟩
  · rw [count, has.count, List.length_append]
  · rw [List.append_assoc, split', ← List.append_assoc, split]

theorem finish (has : encoder.HasSent key sent taken) {last : Bytes}
    (finished : encoder.finish random = (.ok last, random')) : Whole key (sent ++ last) taken := by
  obtain ⟨full, split, carries⟩ := has.carries
  obtain ⟨last', _, finished', whole⟩ := finish_whole has.idle random
  rw [finished] at finished'
  cases finished'
  exact split ▸ (has.own ▸ whole).after carries

end HasSent

end Encoder

end Strongroom.Stream
