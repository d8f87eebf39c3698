import Strongroom.Blob.Store
import Strongroom.Proofs.Stream.Grammar

/-! # Names of blobs

A blob is named by the written form of an identifier. That form tells the
identifier, and a store keeps it as it is: there are no blanks to trim in it
and no slashes.
-/

namespace Strongroom

namespace Hex

theorem digitChar_plain {n : Nat} (small : n < 16) :
    Text.isBlank (digitChar n) = false ∧ digitChar n ≠ '/' ∧ digitChar n ≠ '-' := by
  have all : ∀ n < 16,
      Text.isBlank (digitChar n) = false ∧ digitChar n ≠ '/' ∧ digitChar n ≠ '-' := by decide
  exact all n small

theorem digitChar_injective {m n : Nat} (hm : m < 16) (hn : n < 16)
    (same : digitChar m = digitChar n) : m = n := by
  have all : ∀ m < 16, ∀ n < 16, digitChar m = digitChar n → m = n := by decide
  exact all m hm n hn same

theorem byteDigits_injective {a b : UInt8} (same : byteDigits a = byteDigits b) : a = b := by
  have := a.toNat_lt
  have := b.toNat_lt
  simp only [byteDigits, List.cons.injEq, and_true] at same
  have high := digitChar_injective (by omega) (by omega) same.1
  have low := digitChar_injective (by omega) (by omega) same.2
  exact UInt8.toNat_inj.1 (by omega)

theorem digits_injective {a b : Bytes} (same : a.flatMap byteDigits = b.flatMap byteDigits) :
    a = b := by
  induction a generalizing b with
  | nil =>
      cases b with
      | nil => rfl
      | cons byte rest => cases same
  | cons byte rest ih =>
      cases b with
      | nil => cases same
      | cons other more =>
          obtain ⟨first, tail⟩ := List.append_inj same rfl
          rw [byteDigits_injective first, ih tail]

theorem mem_digits {bytes : Bytes} {c : Char} (member : c ∈ bytes.flatMap byteDigits) :
    ∃ n < 16, c = digitChar n := by
  obtain ⟨byte, _, digit⟩ := List.mem_flatMap.1 member
  have := byte.toNat_lt
  simp only [byteDigits, List.mem_cons, List.not_mem_nil, or_false] at digit
  rcases digit with rfl | rfl
  · exact ⟨byte.toNat / 16, by omega, rfl⟩
  · exact ⟨byte.toNat % 16, by omega, rfl⟩

end Hex

namespace Uuid

theorem filter_group {digits : List Char} (plain : '-' ∉ digits) :
    (group digits).filter (· ≠ '-') = digits := by
  have kept {part : List Char} (inside : part ⊆ digits) : part.filter (· ≠ '-') = part := by
    rw [List.filter_eq_self]
    intro c member
    have : c ≠ '-' := fun hyphen => plain (hyphen ▸ inside member)
    simpa using this
  have within (m n : Nat) : (digits.drop m).take n ⊆ digits := fun _ member =>
    List.mem_of_mem_drop (List.mem_of_mem_take member)
  have back (m n : Nat) : (digits.drop m).take n ++ digits.drop (m + n) = digits.drop m := by
    rw [← List.drop_drop, List.take_append_drop]
  simp only [group, List.filter_append, kept (within _ _), kept (List.take_subset ..),
    kept (List.drop_subset ..), List.append_assoc]
  simp only [List.filter_cons, ne_eq, not_true, decide_false, Bool.false_eq_true, if_false,
    List.filter_nil, List.nil_append]
  rw [back 16 4, back 12 4, back 8 4, List.take_append_drop]

theorem toBytes_injective {a b : Uuid} (same : a.toBytes = b.toBytes) : a = b := by
  have number (id : Uuid) : id.toBytes.toNatBE = id.value.toNat :=
    Bytes.toNatBE_ofNatBE id.value.isLt
  have values : a.value = b.value :=
    BitVec.eq_of_toNat_eq (by rw [← number a, ← number b, same])
  cases a
  cases b
  exact congrArg Uuid.mk values

theorem not_hyphen_digits (id : Uuid) : '-' ∉ id.toBytes.flatMap Hex.byteDigits := by
  intro member
  obtain ⟨n, small, digit⟩ := Hex.mem_digits member
  exact (Hex.digitChar_plain small).2.2 digit.symm

theorem toText_injective {a b : Uuid} (same : a.toText = b.toText) : a = b := by
  have groups := String.ofList_injective same
  have digits := congrArg (List.filter (· ≠ '-')) groups
  rw [filter_group (not_hyphen_digits a), filter_group (not_hyphen_digits b)] at digits
  exact toBytes_injective (Hex.digits_injective digits)

theorem plain_of_mem_toText {id : Uuid} {c : Char} (member : c ∈ id.toText.toList) :
    Text.isBlank c = false ∧ c ≠ '/' := by
  rw [toText, String.toList_ofList] at member
  by_cases hyphen : c = '-'
  · subst hyphen
    decide
  · have digit : c ∈ (group (id.toBytes.flatMap Hex.byteDigits)).filter (· ≠ '-') :=
      List.mem_filter.2 ⟨member, by simpa using hyphen⟩
    rw [filter_group (not_hyphen_digits id)] at digit
    obtain ⟨n, small, rfl⟩ := Hex.mem_digits digit
    exact ⟨(Hex.digitChar_plain small).1, (Hex.digitChar_plain small).2.1⟩

theorem toText_ne_nil (id : Uuid) : id.toText.toList ≠ [] := by
  simp [toText, group]

end Uuid

theorem FileId.toString_injective {a b : FileId} (same : toString a = toString b) : a = b :=
  congrArg FileId.mk (Uuid.toText_injective same)

namespace Text

theorem trim_of_plain {text : String} (plain : ∀ c ∈ text.toList, isBlank c = false) :
    trim text = text := by
  have kept {chars : List Char} (plain : ∀ c ∈ chars, isBlank c = false) :
      chars.dropWhile isBlank = chars := by
    cases chars with
    | nil => rfl
    | cons c rest => simp [plain c List.mem_cons_self]
  have backwards : ∀ c ∈ text.toList.reverse, isBlank c = false := by
    simpa using plain
  rw [trim, kept plain, dropEndWhile, kept backwards, List.reverse_reverse, String.ofList_toList]

end Text

theorem Path.split_of_no_slash {chars : List Char} (none : '/' ∉ chars) :
    split chars = [chars] := by
  induction chars with
  | nil => rfl
  | cons c rest ih =>
      simp only [List.mem_cons, not_or] at none
      rw [split, if_neg (Ne.symm none.1), ih none.2]

namespace BlobStore

theorem storedName_of_plain {name : String} (some : Text.trim name ≠ "")
    (plain : '/' ∉ (Text.trim name).toList) : storedName name = Text.trim name := by
  have notLast : ((Text.trim name).toList.getLast? == .some '/') = false := by
    rw [beq_eq_false_iff_ne]
    exact fun last => plain (List.mem_of_getLast? last)
  have front : (Text.trim name).toList.dropWhile (· == '/') = (Text.trim name).toList := by
    cases chars : (Text.trim name).toList with
    | nil => rfl
    | cons c rest =>
        rw [chars, List.mem_cons, not_or] at plain
        have : (c == '/') = false := beq_eq_false_iff_ne.2 (Ne.symm plain.1)
        rw [List.dropWhile_cons, this]
        rfl
  have nonempty : (Text.trim name).toList ≠ [] := fun nothing =>
    some (String.toList_eq_nil_iff.1 nothing)
  rw [storedName, front]
  split
  · rename_i nothing
    exact absurd nothing nonempty
  · rw [notLast, Path.split_of_no_slash plain, joinNames]
    simp [List.isEmpty_eq_false_iff.2 nonempty, List.intercalate, String.append_empty]

theorem meansFolder_of_plain {key : String} (plain : '/' ∉ key.toList) :
    meansFolder key = false := by
  rw [meansFolder, beq_eq_false_iff_ne]
  exact fun last => plain (List.mem_of_getLast? last)

theorem not_slash_toText (id : Uuid) : '/' ∉ id.toText.toList := fun member =>
  (Uuid.plain_of_mem_toText member).2 rfl

@[simp] theorem storedName_toText (id : Uuid) : storedName id.toText = id.toText := by
  have same : Text.trim id.toText = id.toText :=
    Text.trim_of_plain fun c member => (Uuid.plain_of_mem_toText member).1
  have some : id.toText ≠ "" := fun nothing =>
    id.toText_ne_nil (String.toList_eq_nil_iff.2 nothing)
  rw [storedName_of_plain (same.symm ▸ some) (same.symm ▸ not_slash_toText id), same]

theorem meansFolder_toText (id : Uuid) : meansFolder id.toText = false :=
  meansFolder_of_plain (not_slash_toText id)

end BlobStore

end Strongroom
