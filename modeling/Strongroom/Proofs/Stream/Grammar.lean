import Mathlib.Algebra.Group.Nat.Defs
import Strongroom.Proofs.Cipher.Opening
import Strongroom.Stream.Record

/-! # The grammar of cipher streams

What a byte string means as a stream, read record by record without a buffer, a
limit or a short read. `parse` is total: every byte string carries some
plaintext and then ends, cleanly or with an error. A source that breaks ends the
string where it breaks, and the first record that needs more is lost to it.
-/

namespace Strongroom

namespace Bytes

theorem toNatLE_ofNatLE (size n : Nat) : toNatLE (ofNatLE size n) = n % 256 ^ size := by
  induction size generalizing n with
  | zero => simp [ofNatLE, toNatLE, Nat.mod_one]
  | succ size ih =>
      have step : toNatLE (ofNatLE (size + 1) n) =
          n % 256 + 256 * toNatLE (ofNatLE size (n / 256)) := by
        simp [ofNatLE, toNatLE]
      rw [step, ih, Nat.pow_succ', Nat.mod_mul]

theorem toNatBE_reverse (bytes : Bytes) : toNatBE bytes.reverse = toNatLE bytes := by
  simp [toNatBE, toNatLE, Nat.add_comm]

theorem toNatBE_ofNatBE {size n : Nat} (fits : n < 256 ^ size) :
    toNatBE (ofNatBE size n) = n := by
  rw [ofNatBE, toNatBE_reverse, toNatLE_ofNatLE, Nat.mod_eq_of_lt fits]

end Bytes

namespace Stream

theorem Header.ofBytes_toBytes (header : Header) (fits : header.size < finalBit) :
    ofBytes header.toBytes = header := by
  obtain ⟨last, size⟩ := header
  have small : size % finalBit = size := Nat.mod_eq_of_lt fits
  simp only [finalBit] at fits
  have number : (toBytes ⟨last, size⟩).toNatBE = size + if last then finalBit else 0 := by
    rw [toBytes, small]
    refine Bytes.toNatBE_ofNatBE ?_
    simp only [headerSize, finalBit]
    split <;> omega
  cases last with
  | false =>
      simp only [ofBytes, number, finalBit, mk.injEq, decide_eq_false_iff_not]
      simp only [Bool.false_eq_true, if_false]
      omega
  | true =>
      simp only [ofBytes, number, finalBit, mk.injEq, decide_eq_true_eq, if_true]
      omega

/-- What a byte string means: the plaintext that it carries, and how it ends. -/
structure Reading where
  plaintext : Bytes
  ending : Except Error Unit

namespace Reading

/-- The same reading behind more plaintext. -/
def after (first : Bytes) (reading : Reading) : Reading :=
  ⟨first ++ reading.plaintext, reading.ending⟩

@[simp] theorem plaintext_after (first : Bytes) (reading : Reading) :
    (reading.after first).plaintext = first ++ reading.plaintext := rfl

@[simp] theorem ending_after (first : Bytes) (reading : Reading) :
    (reading.after first).ending = reading.ending := rfl

@[simp] theorem after_nil (reading : Reading) : reading.after [] = reading := rfl

@[simp] theorem after_after (first second : Bytes) (reading : Reading) :
    (reading.after second).after first = reading.after (first ++ second) := by
  simp [after]

end Reading

/-- How a string ends that is too short: the source breaks there, or the stream
    is cut. -/
def shortage (broken : Option String) (cut : Fault) : Except Error Unit :=
  match broken with
  | some text => .error (.storage text)
  | none => .error cut.toError

/-- Read a byte string as a stream. The source ends with the string, or breaks
    there with the text `broken`. -/
def parse (key : DataKey) (bytes : Bytes) (broken : Option String) : Reading :=
  if _nothing : bytes.length = 0 then ⟨[], shortage broken .missingFinal⟩
  else if bytes.length < 4 then ⟨[], shortage broken (.partialHeader bytes.length)⟩
  else
    let number := Bytes.toNatBE (bytes.take 4)
    let size := number % 2 ^ 31
    let rest := bytes.drop 4
    if size < 28 ∨ 65564 < size then ⟨[], .error (Fault.blockLength size).toError⟩
    else if rest.length < size then ⟨[], shortage broken (.cutShort rest.length size)⟩
    else
      match Block.decrypt key (rest.take size) with
      | .error _ => ⟨[], .error .authentication⟩
      | .ok plaintext =>
        let rest := rest.drop size
        if number < 2 ^ 31 then (parse key rest broken).after plaintext
        else if rest.length ≠ 0 then ⟨[], .error Fault.trailingData.toError⟩
        else
          match broken with
          | some text => ⟨[], .error (.storage text)⟩
          | none => ⟨plaintext, .ok ()⟩
termination_by bytes.length
decreasing_by
  simp only [List.length_drop]
  omega

theorem parse_record_append (key : DataKey) {block plaintext : Bytes} (last : Bool) (rest : Bytes)
    (broken : Option String) (atLeast : 28 ≤ block.length) (atMost : block.length ≤ 65564)
    (opens : Block.decrypt key block = .ok plaintext) :
    parse key (record last block ++ rest) broken =
      if last then
        if rest.length ≠ 0 then ⟨[], .error Fault.trailingData.toError⟩
        else
          match broken with
          | some text => ⟨[], .error (.storage text)⟩
          | none => ⟨plaintext, .ok ()⟩
      else (parse key rest broken).after plaintext := by
  let header : Header := ⟨last, block.length⟩
  have headerLength : header.toBytes.length = 4 := Header.length_toBytes header
  have back : Header.ofBytes header.toBytes = header :=
    header.ofBytes_toBytes (by simp only [header, finalBit]; omega)
  have flag : decide (finalBit ≤ header.toBytes.toNatBE) = last := congrArg Header.last back
  have size : header.toBytes.toNatBE % 2 ^ 31 = block.length := congrArg Header.size back
  have whole : record last block ++ rest = header.toBytes ++ (block ++ rest) := by
    simp [record, header]
  have first : (record last block ++ rest).take 4 = header.toBytes := by
    rw [whole, List.take_left' headerLength]
  have behind : (record last block ++ rest).drop 4 = block ++ rest := by
    rw [whole, List.drop_left' headerLength]
  have length : (record last block ++ rest).length = 4 + (block.length + rest.length) := by
    rw [whole, List.length_append, headerLength, List.length_append]
  rw [parse]
  rw [dif_neg (by omega), if_neg (by omega)]
  simp only [first, behind, size]
  rw [if_neg (by omega), if_neg (by simp), List.take_left, List.drop_left, opens]
  cases last with
  | false =>
      have below : header.toBytes.toNatBE < 2 ^ 31 := by
        have := of_decide_eq_false flag
        simp only [finalBit] at this
        omega
      simp only [below, if_true, Bool.false_eq_true, if_false]
  | true =>
      have above : ¬ header.toBytes.toNatBE < 2 ^ 31 := by
        have := of_decide_eq_true flag
        simp only [finalBit] at this
        omega
      simp only [above, if_false, if_true]

/-- A stream is no shorter than its plaintext. -/
theorem length_parse (key : DataKey) (bytes : Bytes) (broken : Option String) :
    (parse key bytes broken).plaintext.length ≤ bytes.length := by
  have block {rest plaintext : Bytes} {size : Nat} (fits : ¬ rest.length < size)
      (opens : Block.decrypt key (rest.take size) = .ok plaintext) : plaintext.length ≤ size := by
    have length := Block.length_of_decrypt opens
    rw [List.length_take] at length
    omega
  fun_induction parse key bytes broken with
  | case1 | case2 | case3 | case4 | case5 | case7 | case8 => exact Nat.zero_le _
  | case6 bytes _ _ _ size rest _ fits plaintext opens more _ ih =>
      have here := block fits opens
      have behind : more.length = bytes.length - 4 - size := by
        simp only [more, rest, List.length_drop, Nat.sub_sub]
      have front : rest.length = bytes.length - 4 := List.length_drop
      rw [Reading.plaintext_after, List.length_append]
      omega
  | case9 bytes _ _ _ size rest _ fits plaintext opens =>
      have here := block fits opens
      have front : rest.length = bytes.length - 4 := List.length_drop
      dsimp only
      omega

/-- A string that breaks off is read like any longer one, but for the error at
    the place where it breaks. -/
theorem parse_broken (key : DataKey) (bytes later : Bytes) (text : String) :
    parse key bytes (some text) = parse key (bytes ++ later) none ∨
      (parse key bytes (some text)).ending = .error (.storage text) ∧
        (parse key bytes (some text)).plaintext <+:
          (parse key (bytes ++ later) none).plaintext := by
  have longer (bytes : Bytes) (header : ¬ bytes.length < 4) := by
    have enough : ¬ (bytes ++ later).length < 4 := by
      rw [List.length_append]
      omega
    have step := parse.eq_1 key (bytes ++ later) none
    rw [dif_neg (by omega), if_neg enough, List.take_append_of_le_length (by omega),
      List.drop_append_of_le_length (by omega)] at step
    exact step
  have whole {rest : Bytes} {size : Nat} (fits : ¬ rest.length < size) :
      ¬ (rest ++ later).length < size ∧ (rest ++ later).take size = rest.take size ∧
        (rest ++ later).drop size = rest.drop size ++ later := by
    refine ⟨?_, List.take_append_of_le_length (by omega),
      List.drop_append_of_le_length (by omega)⟩
    rw [List.length_append]
    omega
  -- Only where the string is too short for what is due do the two part ways.
  fun_induction parse key bytes (some text) with
  | case1 | case2 | case4 => exact .inr ⟨rfl, List.nil_prefix⟩
  | case3 bytes _ header number size bad =>
      left
      rw [longer bytes header]
      simp only [bad, if_true, size, number]
  | case5 bytes _ header number size rest good fits e closed =>
      left
      obtain ⟨enough, take, drop⟩ := whole fits
      rw [longer bytes header]
      simp only [good, enough, if_false, take, closed, size, number, rest]
  | case6 bytes _ header number size rest good fits plaintext opens more below ih =>
      obtain ⟨enough, take, drop⟩ := whole fits
      have step : parse key (bytes ++ later) none =
          (parse key (more ++ later) none).after plaintext := by
        rw [longer bytes header]
        simp only [good, enough, if_false, take, drop, opens, below, if_true, size, number, rest,
          more]
      rw [step]
      rcases ih with same | ⟨ending, carried⟩
      · exact .inl (congrArg (Reading.after plaintext) same)
      · exact .inr ⟨ending, (List.prefix_append_right_inj plaintext).2 carried⟩
  | case7 bytes _ header number size rest good fits plaintext opens more above trailing =>
      left
      obtain ⟨enough, take, drop⟩ := whole fits
      have behind : (more ++ later).length ≠ 0 := by
        rw [List.length_append]
        omega
      rw [longer bytes header]
      simp only [good, enough, if_false, take, drop, opens, above, behind, ne_eq, not_false_eq_true,
        if_true, size, number, rest, more]
  | case8 _ _ _ _ _ _ _ _ _ _ _ _ _ _ same =>
      cases same
      exact .inr ⟨rfl, List.nil_prefix⟩
  | case9 _ _ _ _ _ _ _ _ _ _ _ _ _ never => cases never

end Stream

end Strongroom
