import Strongroom.Catalog.Basic
import Strongroom.Proofs.Blob.Names
import Strongroom.Proofs.Json.RoundTrip

/-! # Catalogs come back from their documents

Identifiers and records read as themselves from what is written of them, as long
as their numbers fit in a word. So a document reads as what the catalog held, in
the order in which it was written.
-/

namespace Strongroom

namespace Uuid

theorem digit?_digitChar {n : Nat} (small : n < 16) : digit? (Hex.digitChar n) = some n := by
  have all : ∀ n < 16, digit? (Hex.digitChar n) = some n := by decide
  exact all n small

def nibbles (bytes : Bytes) : List Nat :=
  bytes.flatMap fun byte => [byte.toNat / 16, byte.toNat % 16]

theorem mapM_digit? (bytes : Bytes) :
    (bytes.flatMap Hex.byteDigits).mapM digit? = some (nibbles bytes) := by
  induction bytes with
  | nil => rfl
  | cons byte bytes ih =>
      have := byte.toNat_lt
      rw [List.flatMap_cons, List.mapM_append, ih]
      simp [Hex.byteDigits, nibbles, digit?_digitChar (n := byte.toNat / 16) (by omega),
        digit?_digitChar (n := byte.toNat % 16) (by omega)]

theorem foldl_nibbles (bytes : Bytes) (high : Nat) :
    (nibbles bytes).foldl (fun high d => 16 * high + d) high =
      bytes.foldl (fun high byte => 256 * high + byte.toNat) high := by
  induction bytes generalizing high with
  | nil => rfl
  | cons byte bytes ih =>
      have whole : 16 * (16 * high + byte.toNat / 16) + byte.toNat % 16 =
          256 * high + byte.toNat := by omega
      have step := ih (256 * high + byte.toNat)
      rw [← whole] at step
      simpa [nibbles, whole] using step

theorem length_digits (id : Uuid) : (id.toBytes.flatMap Hex.byteDigits).length = 32 := by
  have two : ∀ bytes : Bytes, (bytes.flatMap Hex.byteDigits).length = 2 * bytes.length := by
    intro bytes
    induction bytes with
    | nil => rfl
    | cons byte bytes ih =>
        rw [List.flatMap_cons, List.length_append, ih, List.length_cons]
        change 2 + _ = _
        omega
  rw [two, toBytes, Bytes.length_ofNatBE]

theorem ofDigits?_digits (id : Uuid) : ofDigits? (id.toBytes.flatMap Hex.byteDigits) = some id := by
  have number : id.toBytes.foldl (fun high byte => 256 * high + byte.toNat) 0 = id.value.toNat :=
    Bytes.toNatBE_ofNatBE id.value.isLt
  rw [ofDigits?, length_digits, mapM_digit?]
  change some (Uuid.mk (BitVec.ofNat 128
    ((nibbles id.toBytes).foldl (fun high d => 16 * high + d) 0))) = some id
  rw [foldl_nibbles, number, BitVec.ofNat_toNat, BitVec.setWidth_eq]

theorem split_groups {a b c d e : List Char} (la : a.length = 8) (lb : b.length = 4)
    (lc : c.length = 4) (ld : d.length = 4) :
    let text := a ++ ['-'] ++ b ++ ['-'] ++ c ++ ['-'] ++ d ++ ['-'] ++ e
    text.take 8 = a ∧ (text.drop 9).take 4 = b ∧ (text.drop 14).take 4 = c ∧
      (text.drop 19).take 4 = d ∧ text.drop 24 = e := by
  simp (disch := omega) [List.drop_append, List.drop_of_length_le, la, lb, lc, ld]

theorem ungroup {digits : List Char} (length : digits.length = 32) :
    (group digits).length = 36 ∧
      (group digits).take 8 ++ ((group digits).drop 9).take 4 ++ ((group digits).drop 14).take 4 ++
        ((group digits).drop 19).take 4 ++ (group digits).drop 24 = digits := by
  have back (m n : Nat) : (digits.drop m).take n ++ digits.drop (m + n) = digits.drop m := by
    rw [← List.drop_drop, List.take_append_drop]
  constructor
  · simp [group, length]
  · obtain ⟨a, b, c, d, e⟩ := split_groups (a := digits.take 8) (b := (digits.drop 8).take 4)
      (c := (digits.drop 12).take 4) (d := (digits.drop 16).take 4) (e := digits.drop 20)
      (by simp [length]) (by simp [length]) (by simp [length]) (by simp [length])
    rw [group, a, b, c, d, e]
    simp only [List.append_assoc]
    rw [back 16 4, back 12 4, back 8 4, List.take_append_drop]

theorem parse?_toText (id : Uuid) : parse? id.toText = some id := by
  obtain ⟨length, digits⟩ := ungroup (length_digits id)
  rw [parse?, toText, String.toList_ofList, length]
  change ofGroups? (group (id.toBytes.flatMap Hex.byteDigits)) = some id
  rw [ofGroups?, length, digits]
  dsimp only
  rw [ofDigits?_digits, beq_self_eq_true, beq_self_eq_true]
  rfl

end Uuid

/-- A record whose numbers fit in a word, as all do that a program can hold. -/
structure FileRecord.Fits (record : FileRecord) : Prop where
  fileSize : record.fileSize ≤ maxWord64
  blobSize : record.blobSize ≤ maxWord64
  createdAt : record.createdAt ≤ maxWord64

namespace Json

@[simp] theorem text?_text (s : String) : (Json.text s).text? = some s := rfl

@[simp] theorem uuid?_toText (id : Uuid) : (Json.text id.toText).uuid? = some id := by
  rw [uuid?, text?_text, Option.bind_some, Uuid.parse?_toText]

@[simp] theorem nat?_whole {n limit : Nat} (fits : n ≤ limit) :
    (Json.whole n).nat? limit = some n :=
  if_pos fits

@[simp] theorem bytes?_bytes (data : Bytes) : (Json.bytes data).bytes? = some data := by
  change (data.map fun byte => Json.whole byte.toNat).mapM _ = _
  induction data with
  | nil => rfl
  | cons byte data ih =>
      have small : byte.toNat ≤ 255 := Nat.le_of_lt_succ byte.toNat_lt
      rw [List.map_cons, List.mapM_cons, ih]
      simp [small]

end Json

theorem FileRecord.ofJson?_toJson {record : FileRecord} (fits : record.Fits) :
    ofJson? record.toJson = some record := by
  have found : record.toJson.record? fieldNames = some [some (.text record.id.uuid.toText),
      some (.text record.owner.uuid.toText), some (.text record.fileName),
      some (.whole record.fileSize), some (.text record.blobName), some (.whole record.blobSize),
      some (.whole record.createdAt)] := by
    simp [toJson, Json.fields, Json.record?, fieldNames]
  rw [ofJson?, found]
  simp [fits.fileSize, fits.blobSize, fits.createdAt]

theorem UserRecord.ofJson?_toJson (record : UserRecord) :
    ofJson? record.toJson = some record := by
  have found : record.toJson.record? fieldNames = some [some (.text record.id.uuid.toText),
      some (.text record.login), some (.bytes record.wrappedKey)] := by
    simp [toJson, Json.fields, Json.record?, fieldNames]
  rw [ofJson?, found]
  simp

theorem Json.plain_bytes (data : Bytes) : (Json.bytes data).Plain := by
  refine .array fun item member => ?_
  obtain ⟨byte, _, rfl⟩ := List.mem_map.1 member
  exact .whole _

theorem FileRecord.plain_toJson (record : FileRecord) : record.toJson.Plain := by
  refine .object fun member inside => ?_
  simp only [List.map_cons, List.map_nil, List.mem_cons, List.not_mem_nil, or_false] at inside
  rcases inside with rfl | rfl | rfl | rfl | rfl | rfl | rfl
  all_goals first | exact .string _ | exact .whole _

theorem UserRecord.plain_toJson (record : UserRecord) : record.toJson.Plain := by
  refine .object fun member inside => ?_
  simp only [List.map_cons, List.map_nil, List.mem_cons, List.not_mem_nil, or_false] at inside
  rcases inside with rfl | rfl | rfl
  · exact .string _
  · exact .string _
  · exact Json.plain_bytes _

namespace Entries

/-- Every identifier stands for one record. -/
structure Distinct (entries : Entries) : Prop where
  users : (entries.users.map UserRecord.id).Nodup
  files : (entries.files.map FileRecord.id).Nodup

/-- Every number in the files fits in a word. -/
def Fits (entries : Entries) : Prop :=
  ∀ file ∈ entries.files, file.Fits

/-- What the document lists, in its order. -/
def written (entries : Entries) : Entries :=
  ⟨entries.users.mergeSort userWrittenBefore, entries.files.mergeSort writtenBefore⟩

theorem putFile_of_new {entries : Entries} {file : FileRecord}
    (new : file.id ∉ entries.files.map FileRecord.id) :
    entries.putFile file = { entries with files := entries.files ++ [file] } := by
  have kept : entries.files.filter (fun other => other.id ≠ file.id) = entries.files := by
    refine List.filter_eq_self.2 fun other member => decide_eq_true fun same => new ?_
    exact List.mem_map.2 ⟨other, member, same⟩
  rw [putFile, dropFile, kept]

theorem putUser_of_new {entries : Entries} {user : UserRecord}
    (new : user.id ∉ entries.users.map UserRecord.id) :
    entries.putUser user = { entries with users := entries.users ++ [user] } := by
  have kept : entries.users.filter (fun other => other.id ≠ user.id) = entries.users := by
    refine List.filter_eq_self.2 fun other member => decide_eq_true fun same => new ?_
    exact List.mem_map.2 ⟨other, member, same⟩
  rw [putUser, dropUser, kept]

theorem foldl_putFile (files : List FileRecord) (entries : Entries)
    (distinct : ((entries.files ++ files).map FileRecord.id).Nodup) :
    files.foldl putFile entries = { entries with files := entries.files ++ files } := by
  induction files generalizing entries with
  | nil => simp
  | cons file files ih =>
      have new : file.id ∉ entries.files.map FileRecord.id := by
        rw [List.map_append, List.map_cons] at distinct
        exact fun member => (List.nodup_append.1 distinct).2.2 _ member _ List.mem_cons_self rfl
      rw [List.foldl_cons, putFile_of_new new, ih _ (by simpa using distinct)]
      simp

theorem foldl_putUser (users : List UserRecord) (entries : Entries)
    (distinct : ((entries.users ++ users).map UserRecord.id).Nodup) :
    users.foldl putUser entries = { entries with users := entries.users ++ users } := by
  induction users generalizing entries with
  | nil => simp
  | cons user users ih =>
      have new : user.id ∉ entries.users.map UserRecord.id := by
        rw [List.map_append, List.map_cons] at distinct
        exact fun member => (List.nodup_append.1 distinct).2.2 _ member _ List.mem_cons_self rfl
      rw [List.foldl_cons, putUser_of_new new, ih _ (by simpa using distinct)]
      simp

theorem mapM_map {α β : Type} {read : β → Option α} {write : α → β} {values : List α}
    (back : ∀ value ∈ values, read (write value) = some value) :
    (values.map write).mapM read = some values := by
  induction values with
  | nil => rfl
  | cons value values ih =>
      obtain ⟨first, rest⟩ := List.forall_mem_cons.1 back
      rw [List.map_cons, List.mapM_cons, first, ih rest]
      rfl

theorem distinct_written {entries : Entries} (distinct : entries.Distinct) :
    entries.written.Distinct where
  users := ((List.mergeSort_perm _ _).map _).nodup_iff.2 distinct.users
  files := ((List.mergeSort_perm _ _).map _).nodup_iff.2 distinct.files

theorem plain_toJson (entries : Entries) : entries.toJson.Plain := by
  refine .object fun member inside => ?_
  simp only [List.map_cons, List.map_nil, List.mem_cons, List.not_mem_nil, or_false] at inside
  rcases inside with rfl | rfl | rfl
  · exact .whole _
  · refine .array fun item member => ?_
    obtain ⟨user, _, rfl⟩ := List.mem_map.1 member
    exact user.plain_toJson
  · refine .array fun item member => ?_
    obtain ⟨file, _, rfl⟩ := List.mem_map.1 member
    exact file.plain_toJson

/-- A document reads as what was written into it. -/
theorem ofJson?_toJson {entries : Entries} (distinct : entries.Distinct) (fits : entries.Fits) :
    ofJson? entries.toJson = some (documentVersion, entries.written) := by
  have found : entries.toJson.record? ["version", "users", "files"] =
      some [some (.whole documentVersion),
        some (.array (entries.written.users.map UserRecord.toJson)),
        some (.array (entries.written.files.map FileRecord.toJson))] := by
    simp [toJson, Json.fields, Json.record?, written]
  have users : (entries.written.users.map UserRecord.toJson).mapM UserRecord.ofJson? =
      some entries.written.users :=
    mapM_map fun user _ => user.ofJson?_toJson
  have files : (entries.written.files.map FileRecord.toJson).mapM FileRecord.ofJson? =
      some entries.written.files :=
    mapM_map fun file member =>
      FileRecord.ofJson?_toJson (fits file ((List.mergeSort_perm _ _).mem_iff.1 member))
  have version : (Json.whole documentVersion).nat? maxWord32 = some documentVersion := rfl
  have sorted := distinct_written distinct
  rw [ofJson?, found]
  simp only [Option.bind_eq_bind, Option.bind_some, version, list?, users, files]
  rw [foldl_putUser entries.written.users {} sorted.users,
    foldl_putFile entries.written.files ⟨[] ++ entries.written.users, []⟩ sorted.files]
  rfl

theorem Distinct.dropFile {entries : Entries} (distinct : entries.Distinct) (id : FileId) :
    (entries.dropFile id).Distinct where
  users := distinct.users
  files := distinct.files.sublist (List.filter_sublist.map _)

theorem Distinct.putFile {entries : Entries} (distinct : entries.Distinct) (file : FileRecord) :
    (entries.putFile file).Distinct where
  users := distinct.users
  files := by
    have others : ((entries.dropFile file.id).files.map FileRecord.id).Nodup :=
      (distinct.dropFile file.id).files
    rw [Entries.putFile, List.map_append, List.nodup_append]
    refine ⟨others, by simp, ?_⟩
    intro id member _ same
    obtain ⟨other, kept, rfl⟩ := List.mem_map.1 member
    rw [List.map_singleton, List.mem_singleton] at same
    rw [same]
    simpa using (List.mem_filter.1 kept).2

theorem Distinct.putUser {entries : Entries} (distinct : entries.Distinct) (user : UserRecord) :
    (entries.putUser user).Distinct where
  files := distinct.files
  users := by
    have others : ((entries.dropUser user.id).users.map UserRecord.id).Nodup :=
      distinct.users.sublist (List.filter_sublist.map _)
    rw [Entries.putUser, List.map_append, List.nodup_append]
    refine ⟨others, by simp, ?_⟩
    intro id member _ same
    obtain ⟨other, kept, rfl⟩ := List.mem_map.1 member
    rw [List.map_singleton, List.mem_singleton] at same
    rw [same]
    simpa using (List.mem_filter.1 kept).2

theorem Fits.putFile {entries : Entries} (fits : entries.Fits) {file : FileRecord}
    (small : file.Fits) : (entries.putFile file).Fits := by
  intro other member
  rcases List.mem_append.1 member with member | member
  · exact fits other (List.mem_of_mem_filter member)
  · rw [List.mem_singleton.1 member]
    exact small

theorem fits_of_ofJson? {value : Json} {file : FileRecord}
    (read : FileRecord.ofJson? value = some file) : file.Fits := by
  have bounded {limit n : Nat} {value : Json} (read : value.nat? limit = some n) : n ≤ limit := by
    unfold Json.nat? at read
    split at read
    · split at read
      · cases read
        assumption
      · cases read
    · cases read
  unfold FileRecord.ofJson? at read
  simp only [Option.bind_eq_bind, Option.bind_eq_some_iff] at read
  obtain ⟨fields, _, read⟩ := read
  split at read
  · simp only [Option.bind_eq_some_iff] at read
    obtain ⟨_, _, _, _, _, _, _, fileSize, _, _, _, blobSize, _, createdAt, same⟩ := read
    cases same
    exact ⟨bounded fileSize, bounded blobSize, bounded createdAt⟩
  · cases read

theorem forall_of_mapM {α β : Type} {read : α → Option β} {P : β → Prop} {items : List α}
    {values : List β} (all : items.mapM read = some values)
    (each : ∀ item value, read item = some value → P value) : ∀ value ∈ values, P value := by
  induction items generalizing values with
  | nil =>
      cases all
      exact List.forall_mem_nil P
  | cons item items ih =>
      simp only [List.mapM_cons, Option.bind_eq_bind, Option.bind_eq_some_iff] at all
      obtain ⟨value, first, rest, others, same⟩ := all
      cases same
      exact List.forall_mem_cons.2 ⟨each item value first, ih others⟩

theorem sound_foldl_putFile {files : List FileRecord} (small : ∀ file ∈ files, file.Fits)
    {entries : Entries} (distinct : entries.Distinct) (fits : entries.Fits) :
    (files.foldl putFile entries).Distinct ∧ (files.foldl putFile entries).Fits := by
  induction files generalizing entries with
  | nil => exact ⟨distinct, fits⟩
  | cons file files ih =>
      obtain ⟨first, rest⟩ := List.forall_mem_cons.1 small
      exact ih rest (distinct.putFile file) (fits.putFile first)

theorem sound_foldl_putUser (users : List UserRecord) {entries : Entries}
    (distinct : entries.Distinct) (fits : entries.Fits) :
    (users.foldl putUser entries).Distinct ∧ (users.foldl putUser entries).Fits := by
  induction users generalizing entries with
  | nil => exact ⟨distinct, fits⟩
  | cons user users ih => exact ih (distinct.putUser user) fits

/-- Whatever document is read, each identifier stands for one record then, and
    every number fits in a word. -/
theorem sound_of_ofJson? {value : Json} {version : Nat} {entries : Entries}
    (read : ofJson? value = some (version, entries)) : entries.Distinct ∧ entries.Fits := by
  unfold ofJson? at read
  simp only [Option.bind_eq_bind, Option.bind_eq_some_iff] at read
  obtain ⟨fields, _, read⟩ := read
  split at read
  · simp only [Option.bind_eq_some_iff] at read
    obtain ⟨_, _, users, _, files, listed, same⟩ := read
    cases same
    have small : ∀ file ∈ files, file.Fits := by
      unfold list? at listed
      split at listed
      · cases listed
        exact List.forall_mem_nil _
      · exact forall_of_mapM listed fun _ _ => fits_of_ofJson?
      · cases listed
    have nobody : ({} : Entries).Distinct := ⟨List.nodup_nil, List.nodup_nil⟩
    obtain ⟨distinct, fits⟩ := sound_foldl_putUser users nobody (List.forall_mem_nil _)
    exact sound_foldl_putFile small distinct fits
  · cases read

end Entries

namespace Catalog

/-- A catalog reads as what it held when its text was written. -/
theorem read_toText (path : Path) {entries : Entries} (distinct : entries.Distinct)
    (fits : entries.Fits) : Catalog.read path entries.toText = .ok entries.written := by
  rw [Catalog.read, Entries.toText, Json.parse?_pretty entries.plain_toJson, Option.bind_some,
    Entries.ofJson?_toJson distinct fits]
  rfl

theorem sound_of_read {path : Path} {text : String} {entries : Entries}
    (read : Catalog.read path text = .ok entries) : entries.Distinct ∧ entries.Fits := by
  unfold Catalog.read at read
  split at read
  · cases read
  · rename_i parsed
    obtain ⟨value, _, document⟩ := Option.bind_eq_some_iff.1 parsed
    split at read
    · cases read
      exact Entries.sound_of_ofJson? document
    · cases read

end Catalog

end Strongroom
