import Strongroom.Download
import Strongroom.Proofs.Transfer.Acts

/-! # Everything that goes on at once

A scene is the service with all its uploads and the disk at one moment. What
happens next is up to the callers and to the order in which the tasks run: any
upload may act, users are enrolled, records are deleted, downloads start and
read their blobs, the store changes its conduct, and the clock is set. Listings
change nothing. A change of the catalog holds its lock until the flush is over.
-/

namespace Strongroom

variable {δ : Type}

/-- A moment of the service. What was written is kept for the record. -/
structure Scene (δ : Type) extends Transfers where
  disk : δ
  /-- Uploads whose handles are dropped. -/
  dropped : List FileId := []
  /-- Blobs whose records are deleted, and which are still to be removed. -/
  doomed : List String := []
  /-- What the write that is under way hands over. -/
  chunk : FileId → Bytes := fun _ => []
  /-- What the writes that succeeded have handed over. -/
  payload : FileId → Bytes := fun _ => []

/-- What happens next. -/
inductive Deed where
  | start (owner : UserId) (fileName : String)
  | act (id : FileId) (act : Act)
  | enroll (id : UserId) (login : String)
  /-- A file is deleted: first its record, and later its blob. -/
  | delete (id : FileId) (user : UserId)
  | clear (name : String)
  /-- A download starts, and later reads its blob. -/
  | download (id : FileId) (user : UserId)
  | load (download : Download)
  | conduct (conduct : Conduct)
  | tick (clock : Nat)

/-- Delete the record of a file, which is the first half of deleting it. -/
def Service.deleteRecord (service : Service) (id : FileId) (user : UserId) :
    Script (Except Error FileRecord × Service) := do
  match service.ownedRecord id user with
  | .error e => return (.error e, service)
  | .ok record =>
    let service := service.note .delete (toString id)
    match service.conduct.delete with
    | some e => return (.error e, service)
    | none =>
      let (result, catalog) ← service.catalog.delete record.id record.owner
      return (result.map fun _ => record, { service with catalog })

/-- A file is deleted in two halves. -/
theorem Service.deleteFile_eq (service : Service) (id : FileId) (user : UserId) :
    service.deleteFile id user = do
      let (result, service) ← service.deleteRecord id user
      match result with
      | .error e => return (.error e, service)
      | .ok record =>
        let (_, service) ← service.removeBlob record.blobName
        return (.ok (), service) := by
  unfold deleteFile deleteRecord
  cases service.ownedRecord id user with
  | error e => rfl
  | ok record =>
      dsimp only
      cases (service.note .delete (toString id)).conduct.delete with
      | some e => rfl
      | none =>
          simp only [bind_assoc, pure_bind]
          congr 1
          funext outcome
          obtain ⟨result, catalog⟩ := outcome
          cases result with
          | error e => rfl
          | ok => rfl

namespace Upload

/-- A commit is about to ask the catalog. -/
def InsertDue (upload : Upload) : Prop :=
  ∃ size blobSize, upload.call = .joinForSize size ∧ upload.writer.result? = some (.ok blobSize)

/-- What is being written once an act has begun. -/
def chunkAfter (upload : Upload) (act : Act) (chunk : Bytes) : Bytes :=
  match act with
  | .write data => data
  | .caller =>
    match upload.call, upload.inbound with
    | .idle, some (⟨.ok data, _⟩ :: _) => data
    | _, _ => chunk
  | _ => chunk

/-- What has been written after an act: a write adds its data when it ends. -/
def payloadAfter (upload : Upload) (act : Act) (chunk payload : Bytes) : Bytes :=
  match act, upload.call with
  | .caller, .handOff [] => payload ++ chunk
  | _, _ => payload

end Upload

namespace Scene

def Unlocked (scene : Scene δ) : Prop :=
  ∀ upload ∈ scene.uploads, ∀ record rest, upload.call ≠ .flushing record rest

/-- The scene after an act of an upload. -/
def after (scene : Scene δ) (before : Upload) (act : Act) (service : Service) (upload : Upload)
    (disk : δ) : Scene δ where
  toTransfers := scene.toTransfers.store service upload
  disk := disk
  dropped :=
    match act with
    | .drop _ => before.fileId :: scene.dropped
    | _ => scene.dropped
  doomed := scene.doomed
  chunk id := if id = before.fileId then before.chunkAfter act (scene.chunk id) else scene.chunk id
  payload id :=
    if id = before.fileId then before.payloadAfter act (scene.chunk id) (scene.payload id)
    else scene.payload id

/-- One thing happens. -/
inductive Steps (disk : Disk δ) (scene : Scene δ) : Deed → Scene δ → Prop where
  | start {owner : UserId} {fileName : String} {result : Except Halt FileId}
      {transfers : Transfers} :
    scene.toTransfers.start owner fileName = (result, transfers) →
      Steps disk scene (.start owner fileName) { scene with toTransfers := transfers }
  | act {before upload : Upload} {act : Act} {script : Script (Service × Upload)}
      {service : Service} {d : δ} :
    before ∈ scene.uploads →
      (act.takesHandle = true → before.fileId ∉ scene.dropped) →
        (act = .caller → before.InsertDue → scene.Unlocked) →
          before.Offers scene.service act script →
            Script.Runs disk scene.disk script (service, upload) d →
              Steps disk scene (.act before.fileId act) (scene.after before act service upload d)
  | enroll {id : UserId} {login : String} {result : Except Error UserRecord} {service : Service}
      {d : δ} :
    scene.Unlocked →
      Script.Runs disk scene.disk (scene.service.enroll id login) (result, service) d →
        Steps disk scene (.enroll id login) { scene with service, disk := d }
  | delete {id : FileId} {user : UserId} {result : Except Error FileRecord} {service : Service}
      {d : δ} :
    scene.Unlocked →
      Script.Runs disk scene.disk (scene.service.deleteRecord id user) (result, service) d →
        Steps disk scene (.delete id user)
          { scene with
            service, disk := d
            doomed :=
              match result with
              | .ok record => record.blobName :: scene.doomed
              | .error _ => scene.doomed }
  | clear {name : String} {result : Except Error Unit} {service : Service} {d : δ} :
    name ∈ scene.doomed →
      Script.Runs disk scene.disk (scene.service.removeBlob name) (result, service) d →
        Steps disk scene (.clear name)
          { scene with service, disk := d, doomed := scene.doomed.erase name }
  | download {id : FileId} {user : UserId} {result : Except Halt Download} {service : Service}
      {d : δ} :
    Script.Runs disk scene.disk (Download.start scene.service id user) (result, service) d →
      Steps disk scene (.download id user) { scene with service, disk := d }
  | load {download loaded : Download} {d : δ} :
    Script.Runs disk scene.disk (download.load scene.service) loaded d →
      Steps disk scene (.load download) { scene with disk := d }
  | conduct {conduct : Conduct} :
    Steps disk scene (.conduct conduct)
      { scene with service := { scene.service with conduct } }
  | tick {clock : Nat} :
    Steps disk scene (.tick clock) { scene with service := { scene.service with clock } }

/-- Calls run to their end, but for a write that may be given up while a record
    of it waits, and handles are dropped between two calls. No more than the
    first `limit` identifiers are drawn. -/
def Behaves (limit : Nat) (scene : Scene δ) : Deed → Prop
  | .start owner fileName =>
      (scene.toTransfers.start owner fileName).2.service.ids.used ≤ limit
  | .act id act => ∀ upload ∈ scene.uploads, upload.fileId = id → upload.Behaves act
  | _ => True

/-- A run leads from one scene to another, through what is allowed. -/
inductive Reaches (disk : Disk δ) (allows : Scene δ → Deed → Prop) (opening : Scene δ) :
    Scene δ → Prop where
  | refl : Reaches disk allows opening opening
  | step {scene scene' : Scene δ} {deed : Deed} :
    Reaches disk allows opening scene → allows scene deed → Steps disk scene deed scene' →
      Reaches disk allows opening scene'

namespace Reaches

variable {disk : Disk δ} {allows : Scene δ → Deed → Prop} {first second third : Scene δ}

theorem single {deed : Deed} (allowed : allows first deed) (steps : Steps disk first deed second) :
    Reaches disk allows first second :=
  .step .refl allowed steps

theorem trans (before : Reaches disk allows first second)
    (behind : Reaches disk allows second third) : Reaches disk allows first third := by
  induction behind with
  | refl => exact before
  | step _ allowed steps ih => exact .step ih allowed steps

theorem mono {allows' : Scene δ → Deed → Prop}
    (more : ∀ scene deed, allows scene deed → allows' scene deed)
    (reaches : Reaches disk allows first second) : Reaches disk allows' first second := by
  induction reaches with
  | refl => exact .refl
  | step _ allowed steps ih => exact .step ih (more _ _ allowed) steps

end Reaches

end Scene

end Strongroom
