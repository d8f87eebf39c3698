import Strongroom.Proofs.Stream.Serving

/-! # Decoders that cannot be told apart

What a decoder answers depends on the bytes that its source still delivers and on
how that ends. Neither the pieces of the source nor a buffer in front of it show,
not even in where one piece of plaintext ends and the next one begins.
-/

namespace Strongroom.Stream

open Supply

variable {ρ σ : Type} [ByteReader ρ] [Supply ρ] [ByteReader σ] [Supply σ]

/-- Two sources that deliver the same bytes, and then end or break alike. -/
structure Alike (r : ρ) (s : σ) : Prop where
  content : content r = content s
  fault : fault? r = fault? s

/-- Two readings of a record that say the same. Where more records have to come,
    they leave sources that are alike. -/
structure Agree (a : Except Error (Bytes × Bool) × ρ) (b : Except Error (Bytes × Bool) × σ) :
    Prop where
  result : a.1 = b.1
  rest : ∀ plaintext, a.1 = .ok (plaintext, false) → Alike a.2 b.2

/-- Where no more records have to come, the sources do not matter any more. -/
theorem Agree.stop {result : Except Error (Bytes × Bool)} {r : ρ} {s : σ}
    (ends : ∀ plaintext, result ≠ .ok (plaintext, false)) : Agree (result, r) (result, s) :=
  ⟨rfl, fun plaintext more => absurd more (ends plaintext)⟩

namespace Alike

variable {r : ρ} {s : σ}

theorem readFull_of_lt (alike : Alike r s) {want : Nat} (short : (Supply.content r).length < want) :
    ∃ result r' s', readFull r want [] = (result, r') ∧ readFull s want [] = (result, s') ∧
      ∀ bytes, result = .ok bytes → bytes.length < want := by
  obtain ⟨r', read⟩ := readFull_eq_of_lt short
  obtain ⟨s', read'⟩ := readFull_eq_of_lt (alike.content ▸ short)
  rw [← alike.fault, ← alike.content] at read'
  refine ⟨_, r', s', read, read', fun bytes given => ?_⟩
  cases broken : fault? r with
  | some text => simp [broken] at given
  | none =>
      rw [broken] at given
      cases given
      exact short

theorem readFull_of_le (alike : Alike r s) {want : Nat}
    (enough : want ≤ (Supply.content r).length) :
    ∃ r' s', readFull r want [] = (.ok ((Supply.content r).take want), r') ∧
      readFull s want [] = (.ok ((Supply.content r).take want), s') ∧ Alike r' s' := by
  obtain ⟨r', read, kept, still⟩ := readFull_eq_of_le enough
  obtain ⟨s', read', kept', still'⟩ := readFull_eq_of_le (alike.content ▸ enough)
  rw [← alike.content] at read' kept'
  exact ⟨r', s', read, read', kept.trans kept'.symm,
    still.trans (alike.fault.trans still'.symm)⟩

/-- Whether something follows the last record shows alike. -/
theorem readFull_one (alike : Alike r s) : (readFull r 1 []).1 = (readFull s 1 []).1 := by
  by_cases short : (Supply.content r).length < 1
  · obtain ⟨result, r', s', read, read', _⟩ := alike.readFull_of_lt short
    rw [read, read']
  · obtain ⟨r', s', read, read', _⟩ := alike.readFull_of_le (Nat.le_of_not_lt short)
    rw [read, read']

theorem sealedRecord (alike : Alike r s) (key : DataKey) (header : Header) :
    Agree (sealedRecord key header r) (sealedRecord key header s) := by
  unfold Stream.sealedRecord
  by_cases short : (Supply.content r).length < header.size
  · obtain ⟨result, r', s', read, read', cut⟩ := alike.readFull_of_lt short
    rw [read, read']
    cases result with
    | error e => exact .stop (by simp)
    | ok block =>
        simp only [cut block rfl, if_true]
        exact .stop (by simp)
  · obtain ⟨r', s', read, read', rest⟩ := alike.readFull_of_le (Nat.le_of_not_lt short)
    rw [read, read']
    dsimp only
    split
    · exact .stop (by simp)
    · split
      · exact .stop (by simp)
      · cases header.last with
        | false => exact ⟨rfl, fun _ _ => rest⟩
        | true =>
            have same := rest.readFull_one
            generalize readFull r' 1 [] = first at same
            generalize readFull s' 1 [] = second at same
            obtain ⟨result, r''⟩ := first
            obtain ⟨result', s''⟩ := second
            obtain rfl : result = result' := same
            simp only [if_true]
            rcases result with e | (_ | _)
            all_goals exact .stop (by simp)

/-- The next record does not depend on how its source is cut. -/
theorem nextRecord (alike : Alike r s) (key : DataKey) :
    Agree (nextRecord key r) (nextRecord key s) := by
  rw [nextRecord_eq, nextRecord_eq]
  by_cases short : (Supply.content r).length < headerSize
  · obtain ⟨result, r', s', read, read', cut⟩ := alike.readFull_of_lt short
    rw [read, read']
    cases result with
    | error e => exact .stop (by simp)
    | ok bytes =>
        simp only [cut bytes rfl, if_true]
        split
        all_goals exact .stop (by simp)
  · obtain ⟨r', s', read, read', rest⟩ := alike.readFull_of_le (Nat.le_of_not_lt short)
    rw [read, read']
    dsimp only
    split
    · exact .stop (by simp)
    · split
      · exact .stop (by simp)
      · split
        · exact .stop (by simp)
        · exact rest.sealedRecord key _

end Alike

namespace Decoder

variable {d : Decoder ρ} {e : Decoder σ}

/-- Two decoders in the same state, with sources that are alike as long as more
    records have to come. -/
structure Alike (d : Decoder ρ) (e : Decoder σ) : Prop where
  key : d.key = e.key
  ready : d.ready = e.ready
  progress : d.progress = e.progress
  reader : d.progress = .reading → Stream.Alike d.reader e.reader

omit [Supply ρ] in
theorem serve_of_ready (sound : ¬ d.hasFailed) (nonempty : d.ready ≠ []) (limit : Nat) :
    d.serve limit =
      (.ok (some (d.ready.take limit)), { d with ready := d.ready.drop limit }) := by
  rw [serve.eq_def]
  split
  · rename_i failed
    exact absurd ⟨_, failed⟩ sound
  all_goals
    split
    · rename_i nothing
      exact absurd nothing nonempty
    · rfl

omit [Supply ρ] in
theorem serve_of_reading (stands : d.progress = .reading) (nothing : d.ready = [])
    (limit : Nat) :
    d.serve limit =
      match nextRecord d.key d.reader with
      | (.error e, reader) => (.error e, { d with reader, progress := .failed (keptError e) })
      | (.ok (plaintext, last), reader) =>
        serve
          { d with
            reader
            ready := plaintext
            progress := if last then .finished else .reading
            decoded := d.decoded + plaintext.length }
          limit := by
  rw [serve.eq_def]
  split
  · rename_i failed
    rw [stands] at failed
    cases failed
  · rename_i finished
    rw [stands] at finished
    cases finished
  · split
    · split
      · rename_i read
        rw [read]
      · rename_i read
        rw [read]
    · rename_i nonempty
      exact absurd nothing nonempty

/-- Decoders that are alike answer alike, and stay so. -/
theorem Alike.serve (alike : d.Alike e) (limit : Nat) :
    (d.serve limit).1 = (e.serve limit).1 ∧ (d.serve limit).2.Alike (e.serve limit).2 := by
  fun_induction Decoder.serve d limit generalizing e with
  | case1 d fault stands =>
      rw [serve_of_failed (alike.progress ▸ stands)]
      exact ⟨rfl, alike⟩
  | case2 d stands nothing =>
      rw [serve_of_finished (alike.progress ▸ stands) (alike.ready ▸ nothing)]
      exact ⟨rfl, alike⟩
  | case3 d stands nonempty | case6 d stands nonempty =>
      have sound : ¬ e.hasFailed := by
        rintro ⟨fault, failed⟩
        rw [alike.progress, failed] at stands
        cases stands
      rw [serve_of_ready sound (alike.ready ▸ nonempty)]
      refine ⟨by rw [alike.ready], alike.key, ?_, alike.progress, alike.reader⟩
      exact congrArg (List.drop _) alike.ready
  | case4 d stands nothing fault reader failed =>
      have agree := (alike.reader stands).nextRecord d.key
      rw [serve_of_reading (alike.progress ▸ stands) (alike.ready ▸ nothing), ← alike.key]
      rw [failed] at agree
      generalize nextRecord d.key e.reader = outcome at agree
      obtain ⟨result, reader'⟩ := outcome
      obtain rfl : .error fault = result := agree.result
      refine ⟨rfl, rfl, alike.ready, rfl, ?_⟩
      intro reading
      cases reading
  | case5 d stands nothing plaintext last reader decoded ih =>
      have agree := (alike.reader stands).nextRecord d.key
      have stands' : e.progress = .reading := alike.progress ▸ stands
      rw [serve_of_reading stands' (alike.ready ▸ nothing), ← alike.key]
      rw [decoded] at agree
      generalize nextRecord d.key e.reader = outcome at agree
      obtain ⟨result, reader'⟩ := outcome
      obtain rfl : .ok (plaintext, last) = result := agree.result
      refine ih ⟨rfl, rfl, rfl, ?_⟩
      intro reading
      cases last with
      | true => cases reading
      | false => exact agree.rest plaintext rfl

theorem Alike.read (alike : d.Alike e) (limit : Nat) :
    (d.read limit).1 = (e.read limit).1 ∧ (d.read limit).2.Alike (e.read limit).2 := by
  unfold Decoder.read
  split
  · exact ⟨rfl, alike⟩
  · exact alike.serve limit

theorem alike_create (key : DataKey) {r : ρ} {s : σ} (alike : Stream.Alike r s) :
    (create key r).Alike (create key s) :=
  ⟨rfl, rfl, rfl, fun _ => alike⟩

end Decoder

end Strongroom.Stream
