import Strongroom.Proofs.Stream.Supply

/-! # Reading one record

A decoder takes its source apart record by record. What one record says about
the stream agrees with the grammar at every place where the record can fail: in
its header, in its block, and behind the last one.
-/

namespace Strongroom.Stream

open Supply

variable {ρ : Type} [ByteReader ρ] [Supply ρ]

theorem decrypt_error (key : DataKey) {block : Bytes} {e : Error} (enough : 28 ≤ block.length)
    (closed : Block.decrypt key block = .error e) : e = .authentication := by
  have : ¬ block.length < Block.overhead := by
    simp only [Block.overhead, Aead.nonceSize, Aead.tagSize]
    omega
  rw [Block.decrypt, if_neg this] at closed
  split at closed
  · exact (Except.error.inj closed).symm
  · cases closed

/-- What reading one record says about the stream: it ends in an error, it ends
    with a last plaintext, or a plaintext stands before the rest of it. -/
def Tells (key : DataKey) (whole : Reading) : Except Error (Bytes × Bool) × ρ → Prop
  | (.error e, _) => whole = ⟨[], .error e⟩
  | (.ok (plaintext, true), _) => whole = ⟨plaintext, .ok ()⟩
  | (.ok (plaintext, false), r) =>
      whole = (parse key (content r) (fault? r)).after plaintext

theorem Header.admissible_iff (bytes : Bytes) :
    (ofBytes bytes).admissible = true ↔
      ¬ (bytes.toNatBE % 2 ^ 31 < 28 ∨ 65564 < bytes.toNatBE % 2 ^ 31) := by
  have bounds : (ofBytes bytes).admissible = true ↔
      28 ≤ bytes.toNatBE % 2 ^ 31 ∧ bytes.toNatBE % 2 ^ 31 ≤ 65564 := by
    rw [admissible, Bool.and_eq_true, decide_eq_true_eq, decide_eq_true_eq]
    rfl
  rw [bounds]
  omega

/-- The part of `nextRecord` behind an admissible header. -/
def sealedRecord (key : DataKey) (header : Header) (r : ρ) : Except Error (Bytes × Bool) × ρ :=
  match readFull r header.size [] with
  | (.error e, r) => (.error e, r)
  | (.ok block, r) =>
    if block.length < header.size then
      (.error (Fault.cutShort block.length header.size).toError, r)
    else
      match Block.decrypt key block with
      | .error e => (.error e, r)
      | .ok plaintext =>
        if header.last then
          match readFull r 1 [] with
          | (.error e, r) => (.error e, r)
          | (.ok [], r) => (.ok (plaintext, true), r)
          | (.ok _, r) => (.error Fault.trailingData.toError, r)
        else (.ok (plaintext, false), r)

omit [Supply ρ] in
theorem nextRecord_eq (key : DataKey) (r : ρ) :
    nextRecord key r =
      match readFull r headerSize [] with
      | (.error e, r) => (.error e, r)
      | (.ok bytes, r) =>
        if bytes.length = 0 then (.error Fault.missingFinal.toError, r)
        else if bytes.length < headerSize then
          (.error (Fault.partialHeader bytes.length).toError, r)
        else if !(Header.ofBytes bytes).admissible then
          (.error (Fault.blockLength (Header.ofBytes bytes).size).toError, r)
        else sealedRecord key (Header.ofBytes bytes) r := rfl

theorem readFull_eq_of_lt {r : ρ} {want : Nat} (short : (content r).length < want) :
    ∃ r' : ρ, readFull r want [] = (match fault? r with
      | some text => .error (.storage text)
      | none => .ok (content r), r') := by
  have result := readFull_of_lt r want [] short
  refine ⟨(readFull r want []).2, ?_⟩
  simp only [List.reverse_nil, List.flatten_nil, List.nil_append] at result
  exact Prod.ext result rfl

theorem readFull_eq_of_le {r : ρ} {want : Nat} (enough : want ≤ (content r).length) :
    ∃ r' : ρ, readFull r want [] = (.ok ((content r).take want), r') ∧
      content r' = (content r).drop want ∧ fault? r' = fault? r := by
  obtain ⟨result, kept, still⟩ := readFull_of_le r want [] enough
  refine ⟨(readFull r want []).2, Prod.ext ?_ rfl, kept, still⟩
  simpa using result

/-- Nothing may follow the last record, and the source has to say so. -/
theorem tells_last (key : DataKey) (plaintext : Bytes) (r : ρ) :
    Tells key
      (if (content r).length ≠ 0 then ⟨[], .error Fault.trailingData.toError⟩
        else match fault? r with
          | some text => ⟨[], .error (.storage text)⟩
          | none => ⟨plaintext, .ok ()⟩)
      (match readFull r 1 [] with
        | (.error e, r) => (.error e, r)
        | (.ok [], r) => (.ok (plaintext, true), r)
        | (.ok _, r) => (.error Fault.trailingData.toError, r)) := by
  by_cases spent : (content r).length = 0
  · have short : (content r).length < 1 := by omega
    obtain ⟨r', read⟩ := readFull_eq_of_lt short
    have nothing : content r = [] := List.length_eq_zero_iff.1 spent
    rw [read, if_neg (by simpa using nothing)]
    cases fault : fault? r with
    | some text => rfl
    | none =>
        rw [nothing]
        rfl
  · have enough : 1 ≤ (content r).length := by omega
    obtain ⟨r', read, _, _⟩ := readFull_eq_of_le enough
    rw [read, if_pos spent]
    cases front : content r with
    | nil => simp [front] at spent
    | cons byte rest => rfl

theorem tells_sealedRecord (key : DataKey) (number : Nat) (r : ρ)
    (least : 28 ≤ number % 2 ^ 31) :
    Tells key
      (if (content r).length < number % 2 ^ 31 then
        ⟨[], shortage (fault? r) (.cutShort (content r).length (number % 2 ^ 31))⟩
      else
        match Block.decrypt key ((content r).take (number % 2 ^ 31)) with
        | .error _ => ⟨[], .error .authentication⟩
        | .ok plaintext =>
          if number < 2 ^ 31 then
            (parse key ((content r).drop (number % 2 ^ 31)) (fault? r)).after plaintext
          else if ((content r).drop (number % 2 ^ 31)).length ≠ 0 then
            ⟨[], .error Fault.trailingData.toError⟩
          else
            match fault? r with
            | some text => ⟨[], .error (.storage text)⟩
            | none => ⟨plaintext, .ok ()⟩)
      (sealedRecord key ⟨finalBit ≤ number, number % 2 ^ 31⟩ r) := by
  unfold sealedRecord
  by_cases short : (content r).length < number % 2 ^ 31
  · obtain ⟨r', read⟩ := readFull_eq_of_lt short
    rw [if_pos short]
    simp only [read]
    cases fault : fault? r with
    | some text => rfl
    | none =>
        simp only [short, if_true]
        rfl
  · obtain ⟨r', read, kept, still⟩ := readFull_eq_of_le (Nat.le_of_not_lt short)
    have size : ((content r).take (number % 2 ^ 31)).length = number % 2 ^ 31 :=
      List.length_take_of_le (Nat.le_of_not_lt short)
    rw [if_neg short]
    simp only [read, size, Nat.lt_irrefl, if_false]
    cases opens : Block.decrypt key ((content r).take (number % 2 ^ 31)) with
    | error e =>
        have : e = .authentication := decrypt_error key (by rw [size]; exact least) opens
        rw [this]
        rfl
    | ok plaintext =>
        rw [← kept, ← still]
        by_cases below : number < 2 ^ 31
        · have flag : decide (finalBit ≤ number) = false := by
            rw [decide_eq_false_iff_not, finalBit]
            omega
          simp only [below, if_true, flag, Bool.false_eq_true, if_false]
          rfl
        · have flag : decide (finalBit ≤ number) = true := by
            rw [decide_eq_true_eq, finalBit]
            omega
          simp only [below, if_false, flag, if_true]
          exact tells_last key plaintext r'

theorem tells_nextRecord (key : DataKey) (r : ρ) :
    Tells key (parse key (content r) (fault? r)) (nextRecord key r) := by
  rw [nextRecord_eq, parse]
  by_cases header : (content r).length < 4
  · have short : (content r).length < headerSize := header
    obtain ⟨r', read⟩ := readFull_eq_of_lt short
    rw [read]
    cases fault : fault? r with
    | some text =>
        simp only [header, if_true]
        split <;> rfl
    | none =>
        by_cases nothing : (content r).length = 0
        · rw [dif_pos nothing]
          simp only [nothing, if_true]
          rfl
        · rw [dif_neg nothing, if_pos header]
          simp only [nothing, if_false, headerSize, header, if_true]
          rfl
  · have enough : headerSize ≤ (content r).length := Nat.le_of_not_lt header
    obtain ⟨r', read, kept, still⟩ := readFull_eq_of_le enough
    simp only [headerSize] at read kept
    have four : ((content r).take 4).length = 4 :=
      List.length_take_of_le (Nat.le_of_not_lt header)
    rw [dif_neg (by omega), if_neg header]
    simp only [headerSize, read, four, Nat.lt_irrefl, if_false, reduceCtorEq]
    rw [← kept, ← still]
    generalize (content r).take 4 = bytes
    by_cases bad : Bytes.toNatBE bytes % 2 ^ 31 < 28 ∨ 65564 < Bytes.toNatBE bytes % 2 ^ 31
    · have refused : (Header.ofBytes bytes).admissible = false := by
        rw [← Bool.not_eq_true, Header.admissible_iff]
        exact not_not_intro bad
      simp only [bad, if_true, refused, Bool.not_false]
      rfl
    · have allowed := (Header.admissible_iff _).2 bad
      simp only [bad, if_false, allowed, Bool.not_true, Bool.false_eq_true]
      exact tells_sealedRecord key _ r' (by omega)

end Strongroom.Stream
