import Strongroom.Proofs.Blob.Shelf
import Strongroom.Proofs.Catalog.Changes
import Strongroom.Proofs.Transfer.Footprint
import Strongroom.Proofs.Transfer.Scene

/-! # Errands of the service

What happens beside the uploads. An errand leaves the uploads alone, adds no
file to the catalog and changes nobody's key. It removes a blob only where the
record of the blob was deleted before.
-/

namespace Strongroom

variable {δ : Type}

/-- Neither a new upload nor an act of one. -/
def Deed.isErrand : Deed → Bool
  | .start _ _ | .act _ _ => false
  | _ => true

/-- What an errand changes. -/
structure Errand (disk : Disk δ) (scene scene' : Scene δ) : Prop where
  uploads : scene'.uploads = scene.uploads
  dropped : scene'.dropped = scene.dropped
  chunk : scene'.chunk = scene.chunk
  payload : scene'.payload = scene.payload
  master : scene'.service.master = scene.service.master
  config : scene'.service.config = scene.service.config
  ids : scene'.service.ids = scene.service.ids
  path : scene'.service.catalog.path? = scene.service.catalog.path?
  keys : ∀ id key, scene.service.catalog.wrappedKey? id = some key →
    scene'.service.catalog.wrappedKey? id = some key
  files : ∀ file ∈ scene'.service.catalog.entries.files, file ∈ scene.service.catalog.entries.files
  doomed : ∀ name ∈ scene'.doomed, name ∈ scene.doomed ∨
    ∃ file ∈ scene.service.catalog.entries.files,
      file.blobName = name ∧ scene.Unlocked ∧
        ⟨.delete, toString file.id⟩ ∈ scene'.service.journal ∧
          ∀ other ∈ scene'.service.catalog.entries.files, other.id ≠ file.id
  journal : ∃ events, scene'.service.journal = events ++ scene.service.journal ∧
    ∀ event ∈ events, event.verb ≠ .insert ∧ (event.verb = .remove → event.name ∈ scene.doomed)
  objects : (scene'.service.blobs = scene.service.blobs ∧
      (Catalog.Flushes disk scene.service.catalog.path? scene.disk scene'.disk ∨
        scene.service.blobs.Looks disk scene.disk scene'.disk)) ∨
    ∃ name ∈ scene.doomed,
      scene.service.blobs.Reworks disk name scene.disk scene'.service.blobs scene'.disk

namespace Service

variable {disk : Disk δ} {service service' : Service} {d d' : δ}

theorem runs_enroll {id : UserId} {login : String} {result : Except Error UserRecord}
    (runs : Script.Runs disk d (service.enroll id login) (result, service') d') :
    ∃ catalog random, service' = { service with catalog, random } ∧
      Catalog.Flushes disk service.catalog.path? d d' ∧
        catalog.path? = service.catalog.path? ∧
          catalog.entries.files = service.catalog.entries.files ∧
            ∀ id key, service.catalog.wrappedKey? id = some key →
              catalog.wrappedKey? id = some key := by
  obtain ⟨⟨result', catalog, random⟩, d₁, enrolled, rest⟩ := Script.runs_bind.1 runs
  obtain ⟨⟨⟩, rfl⟩ := Script.runs_pure.1 rest
  refine ⟨catalog, random, rfl, ?_⟩
  rcases Vault.runs_enroll enrolled with ⟨_, _, rfl, rfl⟩ | ⟨_, added, inserted, _⟩
  · exact ⟨.inl rfl, rfl, rfl, fun _ _ known => known⟩
  · exact Catalog.runs_insertUser inserted

theorem runs_deleteRecord {id : FileId} {user : UserId} {result : Except Error FileRecord}
    (runs : Script.Runs disk d (service.deleteRecord id user) (result, service') d') :
    ∃ catalog journal, service' = { service with catalog, journal } ∧
      Catalog.Flushes disk service.catalog.path? d d' ∧
        catalog.path? = service.catalog.path? ∧
          catalog.entries.users = service.catalog.entries.users ∧
            (journal = service.journal ∨
              journal = ⟨.delete, toString id⟩ :: service.journal) ∧
              ((∃ record, result = .ok record ∧
                  (record ∈ service.catalog.entries.files ∧ record.id = id ∧
                    record.owner = user) ∧
                  catalog.entries.files = (service.catalog.entries.dropFile record.id).files ∧
                    journal = ⟨.delete, toString record.id⟩ :: service.journal) ∨
                ∃ e, result = .error e ∧
                  (∀ file ∈ catalog.entries.files, file ∈ service.catalog.entries.files) ∧
                    ∀ file ∈ service.catalog.entries.files,
                      (∀ other ∈ service.catalog.entries.files, other.id = file.id → other = file) →
                        file ∈ catalog.entries.files) := by
  unfold deleteRecord at runs
  split at runs
  · rename_i e _
    obtain ⟨⟨⟩, rfl⟩ := Script.runs_pure.1 runs
    exact ⟨_, _, rfl, .inl rfl, rfl, rfl, .inl rfl,
      .inr ⟨e, rfl, fun _ member => member, fun _ member _ => member⟩⟩
  · rename_i record owned
    have there : record ∈ service.catalog.entries.files ∧ record.id = id ∧
        record.owner = user := by
      unfold ownedRecord at owned
      split at owned
      · cases owned
      · rename_i found
        split at owned
        · rename_i own
          cases owned
          obtain ⟨member, same⟩ := Entries.mem_of_file? found
          exact ⟨member, same, own⟩
        · cases owned
    simp only [note] at runs
    split at runs
    · rename_i e _
      obtain ⟨⟨⟩, rfl⟩ := Script.runs_pure.1 runs
      exact ⟨_, _, rfl, .inl rfl, rfl, rfl, .inr rfl,
        .inr ⟨e, rfl, fun _ member => member, fun _ member _ => member⟩⟩
    · obtain ⟨⟨outcome, catalog⟩, d₁, deleted, rest⟩ := Script.runs_bind.1 runs
      obtain ⟨⟨⟩, rfl⟩ := Script.runs_pure.1 rest
      obtain ⟨flushes, path, users, outcomes⟩ := Catalog.runs_delete deleted
      refine ⟨catalog, _, rfl, flushes, path, users, .inr rfl, ?_⟩
      rcases outcomes with ⟨rfl, files⟩ | ⟨e, rfl, files⟩
      · exact .inl ⟨record, rfl, there, files, by rw [there.2.1]⟩
      · exact .inr ⟨e, rfl, files⟩

end Service

namespace Download

variable {disk : Disk δ} {service service' : Service} {d d' : δ}

theorem runs_start {id : FileId} {user : UserId} {result : Except Halt Download}
    (runs : Script.Runs disk d (start service id user) (result, service') d') :
    (service' = service ∧ d' = d) ∨
      ∃ name, service' = service.note .get name ∧ service.blobs.Looks disk d d' := by
  unfold start at runs
  split at runs
  · obtain ⟨⟨⟩, rfl⟩ := Script.runs_pure.1 runs
    exact .inl ⟨rfl, rfl⟩
  · rename_i record _
    split at runs
    · obtain ⟨⟨⟩, rfl⟩ := Script.runs_pure.1 runs
      exact .inl ⟨rfl, rfl⟩
    · obtain ⟨found, d₁, looked, rest⟩ := Script.runs_bind.1 runs
      refine .inr ⟨record.blobName, ?_⟩
      have looks : service.blobs.Looks disk d d₁ := .find looked
      split at rest
      · obtain ⟨⟨⟩, rfl⟩ := Script.runs_pure.1 rest
        exact ⟨rfl, looks⟩
      · obtain ⟨⟨⟩, rfl⟩ := Script.runs_pure.1 rest
        exact ⟨rfl, looks⟩
      · split at rest
        all_goals
          obtain ⟨⟨⟩, rfl⟩ := Script.runs_pure.1 rest
          exact ⟨rfl, looks⟩

theorem runs_load {download loaded : Download}
    (runs : Script.Runs disk d (download.load service) loaded d') :
    d' = d ∨ service.blobs.Looks disk d d' := by
  unfold load at runs
  split at runs
  · obtain ⟨⟨⟩, rfl⟩ := Script.runs_pure.1 runs
    exact .inl rfl
  · obtain ⟨found, d₁, read, rest⟩ := Script.runs_bind.1 runs
    refine .inr ?_
    have looks : service.blobs.Looks disk d d₁ := .read read
    cases found with
    | error text | ok data =>
        obtain ⟨piece, d₂, given, rest⟩ := Script.runs_bind.1 rest
        obtain ⟨rfl, rfl⟩ := Script.runs_pure.1 given
        obtain ⟨rfl, rfl⟩ := Script.runs_pure.1 rest
        exact looks

end Download

namespace Errand

variable {disk : Disk δ} {scene scene' : Scene δ} {deed : Deed}

theorem of_quiet {service : Service} {d : δ} (events : List Event)
    (master : service.master = scene.service.master)
    (config : service.config = scene.service.config) (ids : service.ids = scene.service.ids)
    (catalog : service.catalog = scene.service.catalog)
    (journal : service.journal = events ++ scene.service.journal)
    (quiet : ∀ event ∈ events, event.verb ≠ .insert ∧ event.verb ≠ .remove)
    (blobs : service.blobs = scene.service.blobs)
    (looks : d = scene.disk ∨ scene.service.blobs.Looks disk scene.disk d) :
    Errand disk scene { scene with service, disk := d } where
  uploads := rfl
  dropped := rfl
  chunk := rfl
  payload := rfl
  master := master
  config := config
  ids := ids
  path := congrArg _ catalog
  keys id key known := by
    rw [← catalog] at known
    exact known
  files file member := by
    rw [← catalog]
    exact member
  doomed _ member := .inl member
  journal := ⟨events, journal, fun event member =>
    ⟨(quiet event member).1, fun removal => absurd removal (quiet event member).2⟩⟩
  objects := .inl ⟨blobs, looks.imp .inl id⟩

theorem of_steps (steps : scene.Steps disk deed scene') (errand : deed.isErrand = true) :
    Errand disk scene scene' := by
  cases steps with
  | start | act => cases errand
  | enroll _ runs =>
      obtain ⟨catalog, random, rfl, flushes, path, files, keys⟩ := Service.runs_enroll runs
      exact {
        uploads := rfl, dropped := rfl, chunk := rfl, payload := rfl, master := rfl, config := rfl
        ids := rfl, path := path, keys := keys
        files := fun file member => files ▸ member
        doomed := fun _ member => .inl member
        journal := ⟨[], rfl, by simp⟩
        objects := .inl ⟨rfl, .inl flushes⟩ }
  | delete unlocked runs =>
      obtain ⟨catalog, journal, rfl, flushes, path, users, noted, outcome⟩ :=
        Service.runs_deleteRecord runs
      refine {
        uploads := rfl, dropped := rfl, chunk := rfl, payload := rfl, master := rfl, config := rfl
        ids := rfl, path := path, keys := ?_, files := ?_, doomed := ?_, journal := ?_
        objects := .inl ⟨rfl, .inl flushes⟩ }
      · intro id key known
        rw [Catalog.wrappedKey?, Entries.wrappedKey?, Entries.user?] at known ⊢
        rw [users]
        exact known
      · intro file member
        rcases outcome with ⟨record, _, _, files, _⟩ | ⟨e, _, files, _⟩
        · exact (Entries.mem_dropFile.1 (files ▸ member)).1
        · exact files file member
      · intro name member
        rcases outcome with ⟨record, rfl, ⟨there, _⟩, files, journal⟩ | ⟨e, rfl, _⟩
        · rcases List.mem_cons.1 member with rfl | member
          · refine .inr ⟨record, there, rfl, unlocked, ?_, fun other member => ?_⟩
            · exact journal ▸ List.mem_cons_self
            · exact (Entries.mem_dropFile.1 (files ▸ member)).2
          · exact .inl member
        · exact .inl member
      · rcases noted with rfl | rfl
        · exact ⟨[], rfl, by simp⟩
        · exact ⟨[_], rfl, by simp⟩
  | @clear name result service d doomed runs =>
      obtain ⟨blobs, rfl, outcome⟩ := Service.runs_removeBlob runs
      refine {
        uploads := rfl, dropped := rfl, chunk := rfl, payload := rfl, master := rfl, config := rfl
        ids := rfl, path := rfl, keys := fun _ _ known => known, files := fun _ member => member
        doomed := fun _ member => .inl (List.mem_of_mem_erase member)
        journal := ⟨[⟨.remove, name⟩], rfl, by simpa using doomed⟩
        objects := .inr ⟨name, doomed, ?_⟩ }
      rcases outcome with ⟨_, _, rfl, rfl⟩ | removed
      · exact .nothing
      · exact (BlobStore.Handles.remove removed).reworks
  | download runs =>
      rcases Download.runs_start runs with ⟨rfl, rfl⟩ | ⟨name, rfl, looks⟩
      · exact of_quiet [] rfl rfl rfl rfl rfl (by simp) rfl (.inl rfl)
      · exact of_quiet [⟨.get, name⟩] rfl rfl rfl rfl rfl (by simp) rfl (.inr looks)
  | load runs =>
      exact of_quiet [] rfl rfl rfl rfl rfl (by simp) rfl (Download.runs_load runs)
  | conduct | tick => exact of_quiet [] rfl rfl rfl rfl rfl (by simp) rfl (.inl rfl)

end Errand

namespace Scene

/-- What a scene turns into: an upload starts or moves, or an errand is done. -/
inductive Turns (disk : Disk δ) (scene : Scene δ) : Deed → Scene δ → Prop where
  | start {owner : UserId} {fileName : String} {result : Except Halt FileId}
      {transfers : Transfers} :
    scene.toTransfers.start owner fileName = (result, transfers) →
      Turns disk scene (.start owner fileName) { scene with toTransfers := transfers }
  | act {before upload : Upload} {act : Act} {service : Service} {d : δ} :
    before ∈ scene.uploads →
      (act.takesHandle = true → before.fileId ∉ scene.dropped) →
        (act = .caller → before.InsertDue → scene.Unlocked) →
          Moves disk ⟨scene.service, before, scene.disk⟩ act ⟨service, upload, d⟩ →
            Turns disk scene (.act before.fileId act) (scene.after before act service upload d)
  | errand {deed : Deed} {scene' : Scene δ} :
    deed.isErrand = true → Errand disk scene scene' → Turns disk scene deed scene'

theorem Steps.turns {disk : Disk δ} {scene scene' : Scene δ} {deed : Deed}
    (steps : scene.Steps disk deed scene') : scene.Turns disk deed scene' := by
  cases deed with
  | start =>
      cases steps with
      | start started => exact .start started
  | act =>
      cases steps with
      | act member handle lock offers runs =>
          exact .act member handle lock (moves_of_offers offers runs)
  | _ => exact .errand rfl (.of_steps steps rfl)

end Scene

end Strongroom
