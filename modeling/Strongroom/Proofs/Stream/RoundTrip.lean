import Strongroom.Proofs.Stream.Encoding
import Strongroom.Proofs.Stream.Serving

/-! # From an encoder to a decoder

The plaintext is cut three times: by the writes, by the source, and by the
reads. None of the cuts shows in what arrives, because the records carry the
plaintext as the grammar reads it and a decoder serves what the grammar reads.
The counts on both sides agree as well.
-/

namespace Strongroom.Stream

open Supply

namespace Decoder

variable {ρ : Type} [ByteReader ρ] [Supply ρ]

/-- Plaintext that the records still to be read will give. -/
def undecoded (d : Decoder ρ) : Bytes :=
  match d.progress with
  | .reading => (parse d.key (content d.reader) (fault? d.reader)).plaintext
  | _ => []

/-- What is decoded is counted once, when its record is read. -/
theorem decoded_serve (d : Decoder ρ) (limit : Nat) :
    (d.serve limit).2.decoded + (d.serve limit).2.undecoded.length =
      d.decoded + d.undecoded.length := by
  fun_induction serve d limit with
  | case1 | case2 => rfl
  | case3 d stands => simp only [undecoded, stands]
  | case4 d stands nothing e reader failed =>
      have tells := tells_nextRecord d.key d.reader
      rw [failed] at tells
      simp only [undecoded, stands]
      simp only [Tells] at tells
      rw [tells]
  | case5 d stands nothing plaintext last reader decoded ih =>
      have tells := tells_nextRecord d.key d.reader
      rw [decoded] at tells
      cases last with
      | true =>
          simp only [Tells] at tells
          refine ih.trans ?_
          simp only [undecoded, stands, tells]
          rfl
      | false =>
          simp only [Tells] at tells
          refine ih.trans ?_
          simp only [undecoded, stands, tells, Bool.false_eq_true, dite_false,
            Reading.plaintext_after, List.length_append]
          omega
  | case6 d stands => simp only [undecoded, stands]

theorem decoded_afterReads (d : Decoder ρ) (limits : List Nat) :
    (d.afterReads limits).decoded + (d.afterReads limits).undecoded.length =
      d.decoded + d.undecoded.length := by
  induction limits generalizing d with
  | nil => rfl
  | cons limit limits ih =>
      rw [afterReads, ih]
      by_cases zero : limit = 0
      · rw [zero, read_zero]
      · rw [read_of_pos d (by omega), decoded_serve]

omit [Supply ρ] in
theorem afterReads_of_still {d : Decoder ρ} {answer : Answer}
    (still : ∀ limit, d.serve limit = (answer, d)) (limits : List Nat) :
    d.afterReads limits = d := by
  induction limits with
  | nil => rfl
  | cons limit limits ih =>
      rw [afterReads]
      by_cases zero : limit = 0
      · rw [zero, read_zero, ih]
      · rw [read_of_pos d (by omega), still, ih]

/-- What has been served and what is left are what there was to serve. -/
theorem served_append_remaining (d : Decoder ρ) (sound : ¬ d.hasFailed) (limits : List Nat) :
    served (d.transcript limits) ++ (d.afterReads limits).remaining.plaintext =
      d.remaining.plaintext := by
  -- Once a decoder stands still it serves nothing, and has nothing left.
  have spent {d : Decoder ρ} {answer : Answer} (still : ∀ limit, d.serve limit = (answer, d))
      (nothing : ∀ piece, answer ≠ .ok (some piece)) (left : d.remaining.plaintext = [])
      (limits : List Nat) :
      served (d.transcript limits) ++ (d.afterReads limits).remaining.plaintext = [] := by
    rw [served_of_repeats (repeats_transcript still limits) nothing,
      afterReads_of_still still limits, left, List.append_nil]
  induction limits generalizing d with
  | nil => rfl
  | cons limit limits ih =>
      rw [transcript, afterReads]
      by_cases zero : limit = 0
      · rw [zero, read_zero]
        exact ih d sound
      · rw [read_of_pos d (by omega)]
        have step := step_serve d limit (by omega) sound
        generalize d.serve limit = outcome at step ⊢
        cases step with
        | piece nonempty fits split sound =>
            rw [split, Reading.plaintext_after, ← ih _ sound, ← List.append_assoc]
            rfl
        | finished left stands nothing =>
            rw [left]
            exact spent (serve_of_finished stands nothing) (by simp)
              (by simp only [remaining, stands, nothing]) limits
        | failed left stands =>
            rw [left]
            exact spent (serve_of_failed stands) (by simp)
              (by simp only [remaining, stands]) limits

theorem decoded_of_served {key : DataKey} {r : ρ} {limits : List Nat}
    (all : served ((create key r).transcript limits) =
      (parse key (content r) (fault? r)).plaintext) :
    ((create key r).afterReads limits).decoded =
      (parse key (content r) (fault? r)).plaintext.length := by
  have counted := decoded_afterReads (create key r) limits
  have left := served_append_remaining (create key r) (sound_create key r) limits
  rw [all, remaining_create, List.append_right_eq_self] at left
  have nothing : ((create key r).afterReads limits).undecoded = [] := by
    unfold undecoded
    unfold remaining at left
    split
    · rename_i stands
      simp only [stands, Reading.plaintext_after, List.append_eq_nil_iff] at left
      exact left.2
    · rfl
  rw [nothing] at counted
  simpa [create, undecoded] using counted

end Decoder

/-- The plaintext of an encoder arrives at a decoder. However it is cut into
    writes, however the source cuts the records, and whatever the limits of the
    reads are: the encoder does not fail, the decoder serves pieces of the
    plaintext, in order, that are not empty and fit the limits, and then nothing
    forever. Once more reads than there are bytes have asked for something, all
    of it is served and the counts of both sides agree. -/
theorem decode_encode (key : DataKey) (blockSize : Nat) (pos : 0 < blockSize)
    (le : blockSize ≤ 65536) (pieces : List Bytes) (random : Entropy) :
    ∃ (encoder final : Encoder) (records : List Bytes) (last : Bytes)
      (random' random'' : Entropy),
      Encoder.create key blockSize = .ok encoder ∧
      encoder.writes pieces random = (.ok records, final, random') ∧
      final.finish random' = (.ok last, random'') ∧
      final.received = pieces.flatten.length ∧
      ∀ (ρ : Type) [ByteReader ρ] [Supply ρ] (r : ρ),
        content r = records.flatten ++ last → fault? r = none →
        ∀ limits : List Nat,
          let reads := (Decoder.create key r).transcript limits
          Serves ⟨pieces.flatten, .ok ()⟩ reads ∧
          (pieces.flatten.length < asked reads →
            served reads = pieces.flatten ∧
            (∃ limit, 0 < limit ∧ (limit, .ok none) ∈ reads) ∧
            ((Decoder.create key r).afterReads limits).decoded = pieces.flatten.length) := by
  have created : Encoder.create key blockSize = .ok ⟨key, blockSize, [], 0, pos, le⟩ := by
    rw [Encoder.create, dif_pos ⟨pos, le⟩]
  obtain ⟨_, _, pending, received, idle⟩ := Encoder.idle_create created
  obtain ⟨records, full, final, random', wrote, sameKey, idle', count, split, carries⟩ :=
    Encoder.writes_carries _ idle pieces random
  obtain ⟨last, random'', finished, whole⟩ := Encoder.finish_whole idle' random'
  refine ⟨_, final, records, last, random', random'', created, wrote, finished, ?_, ?_⟩
  · rw [count, received, Nat.zero_add]
  · intro ρ _ _ r delivers sound limits reads
    have stream : parse key (content r) (fault? r) = ⟨pieces.flatten, .ok ()⟩ := by
      have together := (sameKey ▸ whole).after carries
      rw [split, pending, List.nil_append] at together
      rw [delivers, sound]
      exact together
    have serves : Serves ⟨pieces.flatten, .ok ()⟩ reads :=
      stream ▸ Decoder.serves_transcript (Decoder.create key r) (Decoder.sound_create key r) limits
    refine ⟨serves, fun enough => ?_⟩
    obtain ⟨all, shown⟩ := serves.complete enough
    refine ⟨all, shown, ?_⟩
    have decoded := Decoder.decoded_of_served (all.trans (congrArg Reading.plaintext stream).symm)
    rw [decoded, stream]

/-- Eleven bytes in three writes, one of them empty, with blocks of four: twelve
    reads give them back and tell the end. -/
theorem decode_encode_three_writes :
    let key : DataKey := ⟨List.replicate 32 7, rfl⟩
    let pieces : List Bytes := [[104, 101, 108, 108, 111, 32], [], [119, 111, 114, 108, 100]]
    0 < 4 ∧ 4 ≤ 65536 ∧ ∃ stream : Bytes,
      let reads := (Decoder.create key (Source.ofPieces [stream])).transcript
        (List.replicate 12 100)
      content (Source.ofPieces [stream]) = stream ∧ fault? (Source.ofPieces [stream]) = none ∧
        asked reads = 12 ∧ served reads = pieces.flatten := by
  intro key pieces
  obtain ⟨encoder, final, records, last, _, _, _, _, _, _, arrives⟩ :=
    decode_encode key 4 (by decide) (by decide) pieces ⟨fun _ => 0, 0⟩
  let source := Source.ofPieces [records.flatten ++ last]
  have delivers : content source = records.flatten ++ last := by
    simp [source]
  have twelve : asked ((Decoder.create key source).transcript (List.replicate 12 100)) = 12 := rfl
  obtain ⟨_, complete⟩ := arrives Source source delivers rfl (List.replicate 12 100)
  exact ⟨by decide, by decide, records.flatten ++ last, delivers, rfl, twelve,
    (complete (by rw [twelve]; decide)).1⟩

end Strongroom.Stream
