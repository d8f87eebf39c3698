import Strongroom.Proofs.Stream.NextRecord

/-! # What a decoder serves

A decoder serves the plaintext that its source means as a stream, in pieces that
fit the caller's limits, and then the way the stream ends. Neither the pieces of
the source nor the limits show in it. After an error it stays with that error; a
break of the source is an error of the store from then on.
-/

namespace Strongroom.Stream

open Supply

variable {ρ : Type} [ByteReader ρ] [Supply ρ]

theorem keptError_of_parse (key : DataKey) (bytes : Bytes) {e : Error}
    (ends : (parse key bytes none).ending = .error e) : keptError e = e := by
  have framed {fault : Fault}
      (same : Except.error fault.toError = (Except.error e : Except Error Unit)) :
      keptError e = e := by
    cases same
    rfl
  fun_induction parse key bytes none with
  | case1 | case2 | case3 | case4 | case7 => exact framed ends
  | case5 =>
      cases ends
      rfl
  | case6 _ _ _ _ _ _ _ _ _ _ _ _ ih => exact ih ends
  | case8 _ _ _ _ _ _ _ _ _ _ _ _ _ _ never => cases never
  | case9 => cases ends

/-- The answer of a read: an error, a piece, or nothing at the end. -/
abbrev Answer := Except Error (Option Bytes)

/-- The answer to a read of no bytes. -/
def refusal : Answer :=
  .error (.invalidInput "read length must be at least 1")

/-- Reads that all have the same answer, but for those of no bytes. -/
def Repeats (answer : Answer) (reads : List (Nat × Answer)) : Prop :=
  ∀ read ∈ reads, read.2 = if read.1 = 0 then refusal else answer

/-- Reads, each with its limit and its answer, that serve a reading from where
    they start: pieces that fit their limits, and then the end over and over. -/
inductive Serves : Reading → List (Nat × Answer) → Prop where
  | stop {reading : Reading} : Serves reading []
  /-- A read of no bytes changes nothing. -/
  | refused {reading : Reading} {reads : List (Nat × Answer)} :
    Serves reading reads → Serves reading ((0, refusal) :: reads)
  | piece {reading : Reading} {reads : List (Nat × Answer)} {limit : Nat} {piece : Bytes} :
    piece ≠ [] → piece.length ≤ limit → Serves reading reads →
      Serves (reading.after piece) ((limit, .ok (some piece)) :: reads)
  | finished {reads : List (Nat × Answer)} {limit : Nat} :
    0 < limit → Repeats (.ok none) reads → Serves ⟨[], .ok ()⟩ ((limit, .ok none) :: reads)
  /-- The error is given as it arose, and then as it is kept. -/
  | failed {reads : List (Nat × Answer)} {limit : Nat} {e : Error} :
    0 < limit → Repeats (.error (keptError e)) reads →
      Serves ⟨[], .error e⟩ ((limit, .error e) :: reads)

def served : List (Nat × Answer) → Bytes
  | [] => []
  | (_, .ok (some piece)) :: reads => piece ++ served reads
  | _ :: reads => served reads

/-- How many reads ask for something. -/
def asked (reads : List (Nat × Answer)) : Nat :=
  (reads.filter fun read => 0 < read.1).length

/-- The answer that tells how a stream ends. -/
def closing : Except Error Unit → Answer
  | .ok () => .ok none
  | .error e => .error e

theorem served_of_repeats {answer : Answer} {reads : List (Nat × Answer)}
    (repeats : Repeats answer reads) (nothing : ∀ piece, answer ≠ .ok (some piece)) :
    served reads = [] := by
  induction reads with
  | nil => rfl
  | cons read reads ih =>
      obtain ⟨limit, given⟩ := read
      have here := repeats _ List.mem_cons_self
      have rest := ih fun read member => repeats read (List.mem_cons_of_mem _ member)
      simp only at here
      split at here
      · subst here
        exact rest
      · subst here
        rcases given with e | (_ | piece)
        · exact rest
        · exact rest
        · exact absurd rfl (nothing piece)

namespace Serves

/-- More reads than there are bytes serve everything and tell how it ends. -/
theorem complete {reading : Reading} {reads : List (Nat × Answer)}
    (serves : Serves reading reads) (enough : reading.plaintext.length < asked reads) :
    served reads = reading.plaintext ∧
      ∃ limit, 0 < limit ∧ (limit, closing reading.ending) ∈ reads := by
  induction serves with
  | stop => simp [asked] at enough
  | refused _ ih =>
      obtain ⟨all, limit, pos, member⟩ := ih (by simpa [asked] using enough)
      exact ⟨all, limit, pos, List.mem_cons_of_mem _ member⟩
  | @piece reading reads limit piece nonempty fits _ ih =>
      have size : 0 < piece.length := List.length_pos_iff.2 nonempty
      have fewer : reading.plaintext.length < asked reads := by
        have limited : 0 < limit := by omega
        simp only [asked, List.filter_cons, limited, decide_true, if_true, List.length_cons,
          Reading.plaintext_after, List.length_append] at enough ⊢
        omega
      obtain ⟨all, limit, pos, member⟩ := ih fewer
      exact ⟨congrArg (piece ++ ·) all, limit, pos, List.mem_cons_of_mem _ member⟩
  | @finished reads limit pos repeats =>
      have nothing : served reads = [] := served_of_repeats repeats (by simp)
      exact ⟨nothing, limit, pos, List.mem_cons_self⟩
  | @failed reads limit e pos repeats =>
      have nothing : served reads = [] := served_of_repeats repeats (by simp)
      exact ⟨nothing, limit, pos, List.mem_cons_self⟩

end Serves

namespace Decoder

/-- The answers to reads with the given limits, one after the other. -/
def transcript (d : Decoder ρ) : List Nat → List (Nat × Answer)
  | [] => []
  | limit :: limits => (limit, (d.read limit).1) :: (d.read limit).2.transcript limits

def afterReads (d : Decoder ρ) : List Nat → Decoder ρ
  | [] => d
  | limit :: limits => (d.read limit).2.afterReads limits

/-- What a decoder that has not failed has left to serve, and how it will end. -/
def remaining (d : Decoder ρ) : Reading :=
  match d.progress with
  | .reading => (parse d.key (content d.reader) (fault? d.reader)).after d.ready
  | .finished => ⟨d.ready, .ok ()⟩
  | .failed e => ⟨[], .error e⟩

/-- Whether a decoder keeps an error. -/
def hasFailed (d : Decoder ρ) : Prop :=
  ∃ e, d.progress = .failed e

/-- What one read that asks for something may do. -/
inductive Step (d : Decoder ρ) (limit : Nat) : Answer × Decoder ρ → Prop where
  | piece {piece : Bytes} {next : Decoder ρ} :
    piece ≠ [] → piece.length ≤ limit → d.remaining = next.remaining.after piece →
      ¬ next.hasFailed → Step d limit (.ok (some piece), next)
  | finished {next : Decoder ρ} :
    d.remaining = ⟨[], .ok ()⟩ → next.progress = .finished → next.ready = [] →
      Step d limit (.ok none, next)
  | failed {e : Error} {next : Decoder ρ} :
    d.remaining = ⟨[], .error e⟩ → next.progress = .failed (keptError e) →
      Step d limit (.error e, next)

/-- What a read may do depends on what is left to serve alone. -/
theorem Step.congr {d d' : Decoder ρ} {limit : Nat} {outcome : Answer × Decoder ρ}
    (step : Step d' limit outcome) (same : d.remaining = d'.remaining) :
    Step d limit outcome := by
  cases step with
  | piece nonempty fits split sound => exact .piece nonempty fits (same.trans split) sound
  | finished left stands nothing => exact .finished (same.trans left) stands nothing
  | failed left stands => exact .failed (same.trans left) stands

theorem step_serve (d : Decoder ρ) (limit : Nat) (pos : 0 < limit) (sound : ¬ d.hasFailed) :
    Step d limit (d.serve limit) := by
  -- A piece is cut from the front of what is ready.
  have front (d : Decoder ρ) (sound : ¬ d.hasFailed) (nonempty : d.ready ≠ []) :
      Step d limit (.ok (some (d.ready.take limit)), { d with ready := d.ready.drop limit }) := by
    refine .piece ?_ (List.length_take_le limit d.ready) ?_ sound
    · intro h
      rcases List.take_eq_nil_iff.1 h with h | h
      · omega
      · exact nonempty h
    · cases stands : d.progress with
      | failed e => exact absurd ⟨e, stands⟩ sound
      | finished | reading =>
          simp only [remaining, stands, Reading.after, ← List.append_assoc,
            List.take_append_drop]
  fun_induction serve d limit with
  | case1 d e stands => exact absurd ⟨e, stands⟩ sound
  | case2 d stands nothing =>
      refine .finished ?_ stands nothing
      simp only [remaining, stands, nothing]
  | case3 d stands nonempty =>
      exact front d sound nonempty
  | case4 d stands nothing e reader failed =>
      have tells := tells_nextRecord d.key d.reader
      rw [failed] at tells
      refine .failed ?_ rfl
      simp only [remaining, stands, nothing, Reading.after_nil]
      exact tells
  | case5 d stands nothing plaintext last reader decoded ih =>
      have tells := tells_nextRecord d.key d.reader
      rw [decoded] at tells
      cases last with
      | true =>
          refine (ih ?_).congr ?_
          · rintro ⟨e, impossible⟩
            cases impossible
          · simp only [remaining, stands, nothing, Reading.after_nil]
            exact tells
      | false =>
          refine (ih ?_).congr ?_
          · rintro ⟨e, impossible⟩
            cases impossible
          · simp only [remaining, stands, nothing, Reading.after_nil, Bool.false_eq_true]
            exact tells
  | case6 d stands nonempty =>
      exact front d sound nonempty

omit [Supply ρ] in
theorem read_zero (d : Decoder ρ) : d.read 0 = (refusal, d) := rfl

omit [Supply ρ] in
theorem read_of_pos (d : Decoder ρ) {limit : Nat} (pos : 0 < limit) :
    d.read limit = d.serve limit := by
  rw [read, if_neg (by omega)]

omit [Supply ρ] in
theorem serve_of_failed {d : Decoder ρ} {e : Error} (stands : d.progress = .failed e)
    (limit : Nat) : d.serve limit = (.error e, d) := by
  rw [serve.eq_def]
  split
  · rename_i kept failed
    rw [stands] at failed
    cases failed
    rfl
  · rename_i finished
    rw [stands] at finished
    cases finished
  · rename_i reading
    rw [stands] at reading
    cases reading

omit [Supply ρ] in
theorem serve_of_finished {d : Decoder ρ} (stands : d.progress = .finished)
    (nothing : d.ready = []) (limit : Nat) : d.serve limit = (.ok none, d) := by
  rw [serve.eq_def]
  split
  · rename_i failed
    rw [stands] at failed
    cases failed
  · rw [nothing]
  · rename_i reading
    rw [stands] at reading
    cases reading

omit [Supply ρ] in
/-- A decoder that stands still answers all reads alike. -/
theorem repeats_transcript {d : Decoder ρ} {answer : Answer}
    (still : ∀ limit, d.serve limit = (answer, d)) (limits : List Nat) :
    Repeats answer (d.transcript limits) := by
  induction limits with
  | nil =>
      intro read member
      cases member
  | cons limit limits ih =>
      have stays : d.read limit = (if limit = 0 then refusal else answer, d) := by
        by_cases zero : limit = 0
        · rw [zero, read_zero, if_pos rfl]
        · rw [read_of_pos d (by omega), still, if_neg zero]
      intro read member
      rw [transcript, stays] at member
      rcases List.mem_cons.1 member with rfl | member
      · rfl
      · exact ih read member

/-- A decoder that has not failed serves what it has left. -/
theorem serves_transcript (d : Decoder ρ) (sound : ¬ d.hasFailed) (limits : List Nat) :
    Serves d.remaining (d.transcript limits) := by
  -- Only a piece leads on to a decoder that has something left; in the two other
  -- cases it stands still from then on.
  induction limits generalizing d with
  | nil => exact .stop
  | cons limit limits ih =>
      rw [transcript]
      by_cases zero : limit = 0
      · rw [zero, read_zero]
        exact .refused (ih d sound)
      · have pos : 0 < limit := by omega
        rw [read_of_pos d pos]
        have step := step_serve d limit pos sound
        generalize d.serve limit = outcome at step ⊢
        cases step with
        | piece nonempty fits split sound =>
            rw [split]
            exact .piece nonempty fits (ih _ sound)
        | finished left stands nothing =>
            rw [left]
            exact .finished pos (repeats_transcript (serve_of_finished stands nothing) limits)
        | failed left stands =>
            rw [left]
            exact .failed pos (repeats_transcript (serve_of_failed stands) limits)

theorem remaining_create (key : DataKey) (r : ρ) :
    (create key r).remaining = parse key (content r) (fault? r) := rfl

omit [ByteReader ρ] [Supply ρ] in
theorem sound_create (key : DataKey) (r : ρ) : ¬ (create key r).hasFailed := by
  rintro ⟨e, impossible⟩
  cases impossible

end Decoder

/-- A decoder serves exactly the plaintext that its source means under the
    grammar, in pieces that are not empty and fit the limits, and then tells
    exactly how the stream ends, whatever the pieces of the source and the
    limits are. Enough reads reach that end. An error of a source that does not
    break is repeated as it is. A source that breaks changes nothing but that
    what is cut off by it ends in the error of the break. -/
theorem decoder_serves_grammar (key : DataKey) (r : ρ) (limits : List Nat) :
    let reading := parse key (content r) (fault? r)
    let reads := (Decoder.create key r).transcript limits
    Serves reading reads ∧
      (reading.plaintext.length < asked reads →
        served reads = reading.plaintext ∧
          ∃ limit, 0 < limit ∧ (limit, closing reading.ending) ∈ reads) ∧
      (fault? r = none → ∀ e, reading.ending = .error e → keptError e = e) ∧
      ∀ text later, fault? r = some text →
        reading = parse key (content r ++ later) none ∨
          reading.ending = .error (.storage text) ∧
            reading.plaintext <+: (parse key (content r ++ later) none).plaintext := by
  intro reading reads
  have serves : Serves reading reads :=
    Decoder.serves_transcript (Decoder.create key r) (Decoder.sound_create key r) limits
  refine ⟨serves, serves.complete, ?_, ?_⟩
  · intro whole e ends
    simp only [reading, whole] at ends
    exact keptError_of_parse key (content r) ends
  · intro text later broken
    simp only [reading, broken]
    exact parse_broken key (content r) later text

/-- A source that breaks inside a header, read with a limit of nothing between
    two others: the break shows, and then stays as an error of the store. -/
theorem decoder_serves_grammar_of_broken :
    let key : DataKey := ⟨List.replicate 32 0, rfl⟩
    let source : Source := [.data [0x80], .data [0, 0], .fault "lost", .data [28]]
    fault? source = some "lost" ∧
      Serves ⟨[], .error (.storage "lost")⟩ ((Decoder.create key source).transcript [1, 0, 7]) := by
  intro key source
  have cut : parse key [0x80, 0, 0] (some "lost") = ⟨[], .error (.storage "lost")⟩ := by
    rw [parse, dif_neg (by decide), if_pos (by decide)]
    rfl
  refine ⟨rfl, ?_⟩
  have serves := (decoder_serves_grammar key source [1, 0, 7]).1
  exact cut ▸ serves

end Strongroom.Stream
