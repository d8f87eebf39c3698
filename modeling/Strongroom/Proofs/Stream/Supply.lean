import Strongroom.Proofs.Stream.Grammar
import Strongroom.Stream.Decoder

/-! # What a source still delivers

A source may hand out its bytes in pieces of any size, as long as it gives
nothing only at its end. All that matters of it is the bytes that it delivers
and whether it then ends or breaks: filling a buffer, and reading a record, do
not depend on the pieces.
-/

namespace Strongroom.Stream

/-- A source that delivers some bytes, in pieces that it chooses, and then ends
    or breaks. What it does after it broke is left open. -/
class Supply (ρ : Type) [ByteReader ρ] where
  /-- The bytes that are still to come before the source ends or breaks. -/
  content : ρ → Bytes
  /-- The text that the source breaks with, if it does not just end. -/
  fault? : ρ → Option String
  /-- While there are bytes, a read gives some of them, in order. -/
  read_some : ∀ (r : ρ) (n : Nat), 0 < n → content r ≠ [] → ∃ piece : Bytes,
    piece ≠ [] ∧ piece.length ≤ n ∧ (ByteReader.read r n).1 = .ok piece ∧
      content r = piece ++ content (ByteReader.read r n).2 ∧
        fault? (ByteReader.read r n).2 = fault? r
  /-- After them a read gives nothing, or the text of the break. -/
  read_end : ∀ (r : ρ) (n : Nat), 0 < n → content r = [] →
    (ByteReader.read r n).1 = match fault? r with
      | some text => .error text
      | none => .ok []

namespace Source

/-- The bytes before the first break. -/
def content : Source → Bytes
  | [] => []
  | .fault _ :: _ => []
  | .data bytes :: rest => bytes ++ content rest

/-- The text of the first break. -/
def fault? : Source → Option String
  | [] => none
  | .fault text :: _ => some text
  | .data _ :: rest => fault? rest

theorem read_some (source : Source) (n : Nat) (pos : 0 < n) :
    content source ≠ [] → ∃ piece : Bytes,
      piece ≠ [] ∧ piece.length ≤ n ∧ (source.read n).1 = .ok piece ∧
        content source = piece ++ content (source.read n).2 ∧
          fault? (source.read n).2 = fault? source := by
  fun_induction read source n with
  | case1 => intro some; exact absurd rfl some
  | case2 => intro some; exact absurd rfl some
  | case3 rest n ih => exact ih pos
  | case4 rest n bytes nonempty nothing =>
      intro _
      exact ⟨bytes, fun h => nonempty h, List.drop_eq_nil_iff.1 nothing, rfl, rfl, rfl⟩
  | case5 rest n bytes nonempty _ =>
      intro _
      refine ⟨bytes.take n, ?_, List.length_take_le n bytes, rfl, ?_, rfl⟩
      · intro h
        rcases List.take_eq_nil_iff.1 h with h | h
        · omega
        · exact nonempty h
      · simp only [content, ← List.append_assoc, List.take_append_drop]

theorem read_end (source : Source) (n : Nat) :
    content source = [] →
      (source.read n).1 = match fault? source with
        | some text => .error text
        | none => .ok [] := by
  fun_induction read source n with
  | case1 => intro _; rfl
  | case2 => intro _; rfl
  | case3 rest n ih => exact ih
  | case4 rest n bytes nonempty _ => intro h; exact absurd (List.append_eq_nil_iff.1 h).1 nonempty
  | case5 rest n bytes nonempty _ => intro h; exact absurd (List.append_eq_nil_iff.1 h).1 nonempty

instance : Supply Source where
  content := content
  fault? := fault?
  read_some := read_some
  read_end := fun source n _ => read_end source n

/-- A source that hands out pieces and does not break. -/
def ofPieces (pieces : List Bytes) : Source :=
  pieces.map .data

@[simp] theorem content_ofPieces (pieces : List Bytes) :
    Supply.content (ofPieces pieces) = pieces.flatten := by
  change content (ofPieces pieces) = _
  induction pieces with
  | nil => rfl
  | cons piece pieces ih => exact congrArg (piece ++ ·) ih

end Source

namespace Buffered

variable {ρ : Type} [ByteReader ρ] [Supply ρ]

/-- What is held comes first. -/
def content (r : Buffered ρ) : Bytes :=
  r.held ++ Supply.content r.inner

theorem read_some (r : Buffered ρ) (n : Nat) (pos : 0 < n) (due : content r ≠ []) :
    ∃ piece : Bytes, piece ≠ [] ∧ piece.length ≤ n ∧ (r.read n).1 = .ok piece ∧
      content r = piece ++ content (r.read n).2 ∧
        Supply.fault? (r.read n).2.inner = Supply.fault? r.inner := by
  -- A piece that was read in advance is served from its front.
  have front {held : Bytes} (nonempty : held ≠ []) :
      held.take n ≠ [] ∧ (held.take n).length ≤ n := by
    refine ⟨fun h => ?_, List.length_take_le n held⟩
    rcases List.take_eq_nil_iff.1 h with h | h
    · omega
    · exact nonempty h
  unfold read
  by_cases nothing : r.held = []
  · have more : Supply.content r.inner ≠ [] := by
      simpa [content, nothing] using due
    by_cases past : r.capacity ≤ n
    · obtain ⟨piece, nonempty, short, result, split, same⟩ :=
        Supply.read_some r.inner n pos more
      refine ⟨piece, nonempty, short, ?_, ?_, ?_⟩
      · simpa [nothing, past] using result
      · simpa [content, nothing, past] using split
      · simpa [nothing, past] using same
    · obtain ⟨piece, nonempty, short, result, split, same⟩ :=
        Supply.read_some r.inner r.capacity (by omega) more
      cases read : ByteReader.read r.inner r.capacity with
      | mk outcome inner =>
          rw [read] at result split same
          cases result
          refine ⟨piece.take n, (front nonempty).1, (front nonempty).2, ?_, ?_, ?_⟩
          · simp [nothing, past]
          · simp only [content, nothing, List.isEmpty_nil, if_true, past, if_false,
              List.nil_append, split, ← List.append_assoc, List.take_append_drop]
          · simpa [nothing, past, read] using same
  · refine ⟨r.held.take n, (front nothing).1, (front nothing).2, ?_, ?_, ?_⟩
    · simp [nothing]
    · simp only [content, List.isEmpty_iff, nothing, if_false, ← List.append_assoc,
        List.take_append_drop]
    · simp [nothing]

theorem read_end (r : Buffered ρ) (n : Nat) (pos : 0 < n) (spent : content r = []) :
    (r.read n).1 = match Supply.fault? r.inner with
      | some text => .error text
      | none => .ok [] := by
  obtain ⟨nothing, spent⟩ := List.append_eq_nil_iff.1 spent
  unfold read
  by_cases past : r.capacity ≤ n
  · simpa [nothing, past] using Supply.read_end r.inner n pos spent
  · have result := Supply.read_end r.inner r.capacity (by omega) spent
    cases read : ByteReader.read r.inner r.capacity with
    | mk outcome inner =>
        rw [read] at result
        cases outcome with
        | error text => simpa [nothing, past, read] using result
        | ok bytes =>
            cases fault : Supply.fault? r.inner with
            | some text => simp [fault] at result
            | none =>
                have : bytes = [] := by simpa [fault] using result
                simp [nothing, past, this]

instance : Supply (Buffered ρ) where
  content := content
  fault? := fun r => Supply.fault? r.inner
  read_some := read_some
  read_end := read_end

end Buffered

open Supply

variable {ρ : Type} [ByteReader ρ] [Supply ρ]

theorem over_of_read_nil {r r' : ρ} {n : Nat} (pos : 0 < n)
    (read : ByteReader.read r n = (.ok [], r')) : content r = [] ∧ fault? r = none := by
  by_cases spent : content r = []
  · have result := read_end r n pos spent
    rw [read] at result
    cases fault : fault? r with
    | some text => simp [fault] at result
    | none => exact ⟨spent, rfl⟩
  · obtain ⟨piece, nonempty, _, result, _, _⟩ := read_some r n pos spent
    rw [read] at result
    cases result
    exact absurd rfl nonempty

theorem broken_of_read_error {r r' : ρ} {n : Nat} {text : String} (pos : 0 < n)
    (read : ByteReader.read r n = (.error text, r')) :
    content r = [] ∧ fault? r = some text := by
  by_cases spent : content r = []
  · have result := read_end r n pos spent
    rw [read] at result
    cases fault : fault? r with
    | some other =>
        have same : text = other := by simpa [fault] using result
        exact ⟨spent, congrArg some same.symm⟩
    | none => simp [fault] at result
  · obtain ⟨piece, _, _, result, _, _⟩ := read_some r n pos spent
    rw [read] at result
    cases result

theorem front_of_read_cons {r r' : ρ} {n : Nat} {byte : UInt8} {bytes : Bytes} (pos : 0 < n)
    (read : ByteReader.read r n = (.ok (byte :: bytes), r')) :
    (byte :: bytes).length ≤ n ∧ content r = byte :: bytes ++ content r' ∧
      fault? r' = fault? r := by
  by_cases spent : content r = []
  · have result := read_end r n pos spent
    rw [read] at result
    cases fault : fault? r with
    | some text => simp [fault] at result
    | none => simp [fault] at result
  · obtain ⟨piece, _, short, result, split, same⟩ := read_some r n pos spent
    rw [read] at result split same
    cases result
    exact ⟨short, split, same⟩

/-- Where there are enough bytes, exactly those asked for leave the source. -/
theorem readFull_of_le (r : ρ) (want : Nat) (done : List Bytes)
    (enough : want ≤ (content r).length) :
    (readFull r want done).1 = .ok (done.reverse.flatten ++ (content r).take want) ∧
      content (readFull r want done).2 = (content r).drop want ∧
        fault? (readFull r want done).2 = fault? r := by
  fun_induction readFull r want done with
  | case1 r done => simp
  | case2 r want done more text r' read =>
      have spent := (broken_of_read_error (by omega) read).1
      simp only [spent, List.length_nil] at enough
      omega
  | case3 r want done more r' read =>
      have spent := (over_of_read_nil (by omega) read).1
      simp only [spent, List.length_nil] at enough
      omega
  | case4 r want done more byte bytes r' read ih =>
      obtain ⟨short, split, same⟩ := front_of_read_cons (by omega) read
      have left : want - (byte :: bytes).length ≤ (content r').length := by
        rw [split, List.length_append] at enough
        omega
      obtain ⟨got, kept, still⟩ := ih left
      have front : (content r).take want =
          (byte :: bytes) ++ (content r').take (want - (byte :: bytes).length) := by
        rw [split, List.take_append, List.take_of_length_le short]
      have back : (content r).drop want =
          (content r').drop (want - (byte :: bytes).length) := by
        rw [split, List.drop_append, List.drop_of_length_le short, List.nil_append]
      refine ⟨?_, kept.trans back.symm, still.trans same⟩
      rw [got, front]
      simp

/-- Where there are too few, all of them leave the source, and then its end, or
    its break, shows. -/
theorem readFull_of_lt (r : ρ) (want : Nat) (done : List Bytes)
    (short : (content r).length < want) :
    (readFull r want done).1 = match fault? r with
      | some text => .error (.storage text)
      | none => .ok (done.reverse.flatten ++ content r) := by
  fun_induction readFull r want done with
  | case1 r done => omega
  | case2 r want done more text r' read =>
      obtain ⟨_, fault⟩ := broken_of_read_error (by omega) read
      rw [fault]
  | case3 r want done more r' read =>
      obtain ⟨spent, fault⟩ := over_of_read_nil (by omega) read
      rw [fault, spent, List.append_nil]
  | case4 r want done more byte bytes r' read ih =>
      obtain ⟨_, split, same⟩ := front_of_read_cons (by omega) read
      have left : (content r').length < want - (byte :: bytes).length := by
        rw [split, List.length_append] at short
        omega
      rw [ih left, same, split]
      simp

end Strongroom.Stream
