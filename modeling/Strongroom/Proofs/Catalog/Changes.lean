import Strongroom.Proofs.Disk.Runs
import Strongroom.Service.Basic

/-! # Changes of a catalog

Each change does one thing to what the catalog holds, and where its flush fails
the catalog holds what it held before. Files are told apart by membership, since
taking a change back may put a record elsewhere in the list.
-/

namespace Strongroom

namespace Entries

variable {entries entries' : Entries} {record file : FileRecord} {id : FileId}

theorem mem_of_file? (found : entries.file? id = some file) : file ∈ entries.files ∧ file.id = id :=
  ⟨List.mem_of_find?_eq_some found, by simpa using List.find?_some found⟩

theorem mem_dropFile :
    file ∈ (entries.dropFile id).files ↔ file ∈ entries.files ∧ file.id ≠ id := by
  simp [dropFile]

theorem insertFile_ok (inserted : entries.insertFile record = .ok entries') :
    entries' = { entries with files := entries.files ++ [record] } ∧
      ∀ file ∈ entries.files, file.id ≠ record.id := by
  unfold insertFile at inserted
  split at inserted
  · cases inserted
  · rename_i absent
    cases inserted
    refine ⟨rfl, fun file member same => absent ?_⟩
    rw [file?, List.find?_isSome]
    exact ⟨file, member, by simpa using same⟩

theorem deleteFile_ok {owner : UserId}
    (deleted : entries.deleteFile id owner = .ok (file, entries')) :
    entries.file? id = some file ∧ entries' = entries.dropFile id := by
  unfold deleteFile at deleted
  split at deleted
  · rename_i found there
    split at deleted
    · cases deleted
      exact ⟨there, rfl⟩
    · cases deleted
  · cases deleted

theorem insertUser_ok {user : UserRecord} (inserted : entries.insertUser user = .ok entries') :
    entries' = { entries with users := entries.users ++ [user] } ∧
      ∀ other ∈ entries.users, other.id ≠ user.id := by
  unfold insertUser at inserted
  split at inserted
  · cases inserted
  · rename_i absent
    split at inserted
    · cases inserted
    · cases inserted
      refine ⟨rfl, fun other member same => absent ?_⟩
      rw [user?, List.find?_isSome]
      exact ⟨other, member, by simpa using same⟩

theorem wrappedKey?_append {users : List UserRecord} {id : UserId} {key : Bytes}
    (known : entries.wrappedKey? id = some key) :
    { entries with users := entries.users ++ users }.wrappedKey? id = some key := by
  obtain ⟨user, found, rfl⟩ := Option.map_eq_some_iff.1 known
  rw [wrappedKey?, user?, List.find?_append, show entries.users.find? _ = some user from found]
  rfl

theorem dropUser_append {user : UserRecord} (new : ∀ other ∈ entries.users, other.id ≠ user.id) :
    { entries with users := entries.users ++ [user] }.dropUser user.id = entries := by
  have kept : entries.users.filter (fun other => other.id ≠ user.id) = entries.users :=
    List.filter_eq_self.2 fun other member => by simpa using new other member
  simp only [dropUser, List.filter_append, kept]
  simp

end Entries

namespace Catalog

variable {δ : Type} {disk : Disk δ} {catalog catalog' : Catalog} {d d' : δ}

@[simp] theorem entries_withEntries (catalog : Catalog) (entries : Entries) :
    (catalog.withEntries entries).entries = entries := by
  cases catalog <;> rfl

@[simp] theorem path?_withEntries (catalog : Catalog) (entries : Entries) :
    (catalog.withEntries entries).path? = catalog.path? := by
  cases catalog <;> rfl

theorem withEntries_entries (catalog : Catalog) :
    catalog.withEntries catalog.entries = catalog := by
  cases catalog <;> rfl

theorem stageFile_ok {record : FileRecord} (staged : catalog.stageFile record = .ok catalog') :
    catalog'.path? = catalog.path? ∧
      catalog'.entries = { catalog.entries with files := catalog.entries.files ++ [record] } ∧
        ∀ file ∈ catalog.entries.files, file.id ≠ record.id := by
  unfold stageFile at staged
  cases inserted : catalog.entries.insertFile record with
  | error e =>
      rw [inserted] at staged
      cases staged
  | ok entries =>
      rw [inserted] at staged
      cases staged
      obtain ⟨rfl, new⟩ := Entries.insertFile_ok inserted
      exact ⟨path?_withEntries _ _, entries_withEntries _ _, new⟩

@[simp] theorem path?_unstageFile (catalog : Catalog) (id : FileId) :
    (catalog.unstageFile id).path? = catalog.path? :=
  path?_withEntries _ _

@[simp] theorem entries_unstageFile (catalog : Catalog) (id : FileId) :
    (catalog.unstageFile id).entries = catalog.entries.dropFile id :=
  entries_withEntries _ _

/-- A change is kept or undone with its flush. -/
theorem runs_settle {changed undone : Catalog} {result : Except Error Unit}
    (runs : Script.Runs disk d (changed.settle undone) (result, catalog') d') :
    Script.Runs disk d changed.flush result d' ∧
      ((result = .ok () ∧ catalog' = changed) ∨ ∃ e, result = .error e ∧ catalog' = undone) := by
  obtain ⟨outcome, d₁, flushed, rest⟩ := Script.runs_bind.1 runs
  cases outcome with
  | ok =>
      obtain ⟨⟨⟩, rfl⟩ := Script.runs_pure.1 rest
      exact ⟨flushed, .inl ⟨rfl, rfl⟩⟩
  | error e =>
      obtain ⟨⟨⟩, rfl⟩ := Script.runs_pure.1 rest
      exact ⟨flushed, .inr ⟨e, rfl, rfl⟩⟩

/-- What a change of a catalog asks of the disk: nothing, or one flush. -/
def Flushes (disk : Disk δ) (path : Option Path) (d d' : δ) : Prop :=
  d' = d ∨ ∃ changed result, changed.path? = path ∧ Script.Runs disk d (flush changed) result d'

/-- A file that is deleted is gone, and nothing else; if that fails no file is
    new, and none that has its identifier for itself is gone. -/
theorem runs_delete {id : FileId} {owner : UserId} {result : Except Error Unit}
    (runs : Script.Runs disk d (catalog.delete id owner) (result, catalog') d') :
    Flushes disk catalog.path? d d' ∧ catalog'.path? = catalog.path? ∧
      catalog'.entries.users = catalog.entries.users ∧
        ((result = .ok () ∧ catalog'.entries.files = (catalog.entries.dropFile id).files) ∨
          ∃ e, result = .error e ∧
            (∀ file ∈ catalog'.entries.files, file ∈ catalog.entries.files) ∧
              ∀ file ∈ catalog.entries.files,
                (∀ other ∈ catalog.entries.files, other.id = file.id → other = file) →
                  file ∈ catalog'.entries.files) := by
  unfold delete at runs
  split at runs
  · rename_i e _
    obtain ⟨⟨⟩, rfl⟩ := Script.runs_pure.1 runs
    exact ⟨.inl rfl, rfl, rfl,
      .inr ⟨e, rfl, fun _ member => member, fun _ member _ => member⟩⟩
  · rename_i record entries deleted
    obtain ⟨found, rfl⟩ := Entries.deleteFile_ok deleted
    obtain ⟨there, same⟩ := Entries.mem_of_file? found
    obtain ⟨flushed, outcome⟩ := runs_settle runs
    have flushes : Flushes disk catalog.path? d d' := .inr ⟨_, _, path?_withEntries _ _, flushed⟩
    rcases outcome with ⟨rfl, rfl⟩ | ⟨e, rfl, rfl⟩
    · exact ⟨flushes, by simp, by simp [Entries.dropFile], .inl ⟨rfl, by simp⟩⟩
    · have back (file : FileRecord) :
          file ∈ ((catalog.entries.dropFile id).putFile record).files ↔
            (file ∈ catalog.entries.files ∧ file.id ≠ id) ∨ file = record := by
        simp only [Entries.putFile, List.mem_append, List.mem_singleton, Entries.mem_dropFile, same,
          and_assoc, and_self]
      refine ⟨flushes, by simp, by simp [Entries.putFile, Entries.dropFile], .inr ⟨e, rfl, ?_⟩⟩
      simp only [entries_withEntries, back]
      constructor
      · rintro file (⟨member, _⟩ | rfl)
        · exact member
        · exact there
      · intro file member alone
        by_cases here : file.id = id
        · exact .inr (alone record there (same.trans here.symm)).symm
        · exact .inl ⟨member, here⟩

theorem runs_insertUser {user : UserRecord} {result : Except Error Unit}
    (runs : Script.Runs disk d (catalog.insertUser user) (result, catalog') d') :
    Flushes disk catalog.path? d d' ∧ catalog'.path? = catalog.path? ∧
      catalog'.entries.files = catalog.entries.files ∧
        ∀ id key, catalog.wrappedKey? id = some key → catalog'.wrappedKey? id = some key := by
  unfold insertUser at runs
  split at runs
  · obtain ⟨⟨⟩, rfl⟩ := Script.runs_pure.1 runs
    exact ⟨.inl rfl, rfl, rfl, fun _ _ known => known⟩
  · rename_i entries inserted
    obtain ⟨rfl, new⟩ := Entries.insertUser_ok inserted
    obtain ⟨flushed, outcome⟩ := runs_settle runs
    have flushes : Flushes disk catalog.path? d d' := .inr ⟨_, _, path?_withEntries _ _, flushed⟩
    rcases outcome with ⟨rfl, rfl⟩ | ⟨e, rfl, rfl⟩
    · refine ⟨flushes, by simp, by simp, fun id key known => ?_⟩
      rw [wrappedKey?, entries_withEntries]
      exact Entries.wrappedKey?_append known
    · refine ⟨flushes, by simp, by simp [Entries.dropUser], fun id key known => ?_⟩
      rw [wrappedKey?, entries_withEntries, Entries.dropUser_append new]
      exact known

end Catalog

namespace Vault

variable {δ : Type} {disk : Disk δ} {catalog catalog' : Catalog} {d d' : δ}

def newcomer (master : MasterKey) (id : UserId) (login : String) (random : Entropy) :
    UserRecord where
  id := id
  login := Text.trim login
  wrappedKey := ((DataKey.generate random).1.wrap master (DataKey.generate random).2).1

/-- Enrolling adds the newcomer to the catalog, unless the login is blank. -/
theorem runs_enroll {master : MasterKey} {id : UserId} {login : String} {random rest : Entropy}
    {result : Except Error UserRecord}
    (runs : Script.Runs disk d (enroll master catalog id login random) (result, catalog', rest)
      d') :
    (Text.trim login = "" ∧ result = .error (.invalidInput "login must not be empty") ∧
        catalog' = catalog ∧ d' = d) ∨
      Text.trim login ≠ "" ∧ ∃ added,
        Script.Runs disk d (catalog.insertUser (newcomer master id login random))
            (added, catalog') d' ∧
          result = added.map fun _ => newcomer master id login random := by
  simp only [enroll] at runs
  split at runs
  · rename_i blank
    obtain ⟨done, rfl⟩ := Script.runs_pure.1 runs
    cases done
    exact .inl ⟨String.isEmpty_iff.1 blank, rfl, rfl, rfl⟩
  · rename_i named
    obtain ⟨⟨added, catalog''⟩, d₁, inserted, last⟩ := Script.runs_bind.1 runs
    obtain ⟨done, rfl⟩ := Script.runs_pure.1 last
    cases done
    exact .inr ⟨fun blank => named (String.isEmpty_iff.2 blank), added, inserted, rfl⟩

end Vault

end Strongroom
