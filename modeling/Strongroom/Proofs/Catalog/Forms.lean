import Strongroom.Proofs.Catalog.Document
import Strongroom.Proofs.Json.Compact
import Strongroom.Proofs.Toml.Fields

/-! # Records come back from their text forms

A record of a user or of a file reads as itself from either layout of its JSON
value, and from its TOML document. There is no such document only where a number
has more than the bits of a signed integer.
-/

namespace Strongroom

namespace Toml

@[simp] theorem text?_string (text : String) : (Toml.string text).text? = some text := rfl

@[simp] theorem uuid?_toText (id : Uuid) : (Toml.string id.toText).uuid? = some id := by
  rw [uuid?, Uuid.parse?_toText]

@[simp] theorem nat?_integer {n limit : Nat} (fits : n ≤ limit) :
    (Toml.integer n).nat? limit = some n := by
  have bounds : (0 : Int) ≤ n ∧ (n : Int) ≤ limit := by omega
  rw [nat?, if_pos bounds, Int.toNat_natCast]

@[simp] theorem bytes?_bytes (data : Bytes) :
    (Toml.array (data.map fun byte => .integer byte.toNat)).bytes? = some data := by
  refine Entries.mapM_map fun byte _ => ?_
  have small : byte.toNat ≤ 255 := Nat.le_of_lt_succ byte.toNat_lt
  rw [nat?_integer small]
  simp

end Toml

namespace FileRecord

theorem tidy_toToml (record : FileRecord) : Toml.Tidy record.toToml := by
  have names : record.toToml.map Prod.fst = fieldNames := rfl
  rw [← Toml.listed_pairs record.toToml, names]
  refine Toml.tidy_listed (by decide) (by decide) fun value member => ?_
  simp only [toToml, List.map_cons, List.map_nil, List.mem_cons, Option.some.injEq,
    List.not_mem_nil, or_false] at member
  rcases member with rfl | rfl | rfl | rfl | rfl | rfl | rfl
  all_goals first | exact .string _ | exact .integer _

theorem ofToml?_toToml {record : FileRecord} (fits : record.Fits) :
    ofToml? (.table record.toToml) = some record := by
  have names : record.toToml.map Prod.fst = fieldNames := rfl
  have found := Toml.record?_table record.tidy_toToml.distinct
  rw [names] at found
  rw [ofToml?, found]
  simp [toToml, fits.fileSize, fits.blobSize, fits.createdAt]

/-- A record of a file can be written as TOML exactly if its numbers fit. -/
theorem ofPairs?_toToml (record : FileRecord) :
    Toml.ofPairs? record.toToml = none ↔ Toml.maxInteger < record.fileSize ∨
      Toml.maxInteger < record.blobSize ∨ Toml.maxInteger < record.createdAt := by
  rw [Toml.ofPairs?_eq_none]
  simp [toToml, Toml.valueChars?, Toml.integerChars?_eq_none]

/-- Both layouts of a record are read as it. -/
theorem parse?_layouts {record : FileRecord} (fits : record.Fits) {text : String}
    (layout : text ∈ [record.toJson.compact, record.toJson.pretty]) :
    (Json.parse? text).bind ofJson? = some record := by
  rw [Json.parse?_layouts record.plain_toJson layout, Option.bind_some, ofJson?_toJson fits]

theorem parse?_document {record : FileRecord} (fits : record.Fits) {text : String}
    (written : Toml.ofPairs? record.toToml = some text) :
    (Toml.parse? text).bind ofToml? = some record := by
  rw [Toml.parse?_ofPairs record.tidy_toToml written, Option.bind_some, ofToml?_toToml fits]

end FileRecord

namespace UserRecord

theorem tidy_toToml (user : UserRecord) : Toml.Tidy user.toToml := by
  have names : user.toToml.map Prod.fst = fieldNames := rfl
  rw [← Toml.listed_pairs user.toToml, names]
  refine Toml.tidy_listed (by decide) (by decide) fun value member => ?_
  simp only [toToml, List.map_cons, List.map_nil, List.mem_cons, Option.some.injEq,
    List.not_mem_nil, or_false] at member
  rcases member with rfl | rfl | rfl
  · exact .string _
  · exact .string _
  · refine .array (by decide) fun item inside => ?_
    obtain ⟨byte, _, rfl⟩ := List.mem_map.1 inside
    exact .integer _

theorem ofToml?_toToml (user : UserRecord) : ofToml? (.table user.toToml) = some user := by
  have names : user.toToml.map Prod.fst = fieldNames := rfl
  have found := Toml.record?_table user.tidy_toToml.distinct
  rw [names] at found
  rw [ofToml?, found]
  simp [toToml]

theorem exists_ofPairs?_toToml (user : UserRecord) :
    ∃ text, Toml.ofPairs? user.toToml = some text := by
  refine Option.ne_none_iff_exists'.1 fun none => ?_
  obtain ⟨pair, member, fails⟩ := Toml.ofPairs?_eq_none.1 none
  simp only [toToml, List.mem_cons, List.not_mem_nil, or_false] at member
  rcases member with rfl | rfl | rfl
  · simp [Toml.valueChars?] at fails
  · simp [Toml.valueChars?] at fails
  · obtain ⟨item, inside, fails⟩ := Toml.valueChars?_array_eq_none.1 fails
    obtain ⟨byte, _, rfl⟩ := List.mem_map.1 inside
    have large : Toml.maxInteger < byte.toNat := Toml.integerChars?_eq_none.1 fails
    have small : byte.toNat ≤ Toml.maxInteger := byte.toNat_lt.le.trans (by decide)
    exact absurd small (Nat.not_le.2 large)

theorem parse?_layouts {user : UserRecord} {text : String}
    (layout : text ∈ [user.toJson.compact, user.toJson.pretty]) :
    (Json.parse? text).bind ofJson? = some user := by
  rw [Json.parse?_layouts user.plain_toJson layout, Option.bind_some, ofJson?_toJson]

theorem parse?_document {user : UserRecord} {text : String}
    (written : Toml.ofPairs? user.toToml = some text) :
    (Toml.parse? text).bind ofToml? = some user := by
  rw [Toml.parse?_ofPairs user.tidy_toToml written, Option.bind_some, ofToml?_toToml]

end UserRecord

end Strongroom
