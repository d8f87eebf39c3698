import Strongroom.Proofs.Transfer.Payload

/-! # What is kept of a file

A record in the catalog has its blob, whole and of the length that it says, and
the blob carries what was written. Keys do not change, an upload brings its
record only once its blob is stored, and a blob is removed only once its record
is deleted, so every step keeps that.
-/

namespace Strongroom

variable {δ : Type}

theorem Service.keyOf_mono {service service' : Service} {user : UserId} {key : DataKey}
    (master : service'.master = service.master)
    (more : ∀ wrapped, service.catalog.wrappedKey? user = some wrapped →
      service'.catalog.wrappedKey? user = some wrapped)
    (known : service.keyOf user = .ok key) : service'.keyOf user = .ok key := by
  unfold keyOf Vault.resolve at known ⊢
  cases wrapped : service.catalog.wrappedKey? user with
  | none =>
      rw [wrapped] at known
      cases known
  | some bytes =>
      rw [wrapped] at known
      rw [more bytes wrapped, master]
      exact known

section

variable {disk : Disk δ} {s s' : Spot δ} {act : Act} {gone : Prop}

theorem Footprint.wrappedKey? (footprint : Footprint disk s s') (user : UserId) :
    s'.service.catalog.wrappedKey? user = s.service.catalog.wrappedKey? user := by
  have users : s'.service.catalog.entries.users = s.service.catalog.entries.users := by
    rcases footprint.catalog with same | ⟨_, _, _, _, _, staged⟩ | ⟨_, _, _, gone⟩
    · rw [same]
    · rw [(Catalog.stageFile_ok staged).2.1]
    · rw [gone, Catalog.entries_unstageFile]
      rfl
  rw [Catalog.wrappedKey?, Catalog.wrappedKey?, Entries.wrappedKey?, Entries.wrappedKey?,
    Entries.user?, Entries.user?, users]

theorem Moves.put (moves : Moves disk s act s') :
    s'.service.conduct.put = s.service.conduct.put := by
  have removal {result : Except Error Unit} {service : Service} {name : String} {d : δ}
      (runs : Script.Runs disk s.disk (s.service.removeBlob name) (result, service) d) :
      service.conduct.put = s.service.conduct.put := by
    obtain ⟨blobs, rfl, _⟩ := Service.runs_removeBlob runs
    rfl
  cases moves with
  | cleared _ _ runs => exact removal runs
  | caller moves =>
      cases moves with
      | removed _ runs => exact removal runs
      | _ => rfl
  | writer moves =>
      cases moves with
      | began opens | notBegun opens => cases opens <;> rfl
      | @endedDraining _ _ ending _ _ _ _ _ ended =>
          cases ending
          all_goals
            cases ended
            rfl
      | _ => rfl

/-- The writer of an upload whose record is in the catalog has ended with
    success. -/
theorem Upload.Stands.stored {upload : Upload} (stands : upload.Stands gone)
    (filed : upload.InCatalog) : ∃ size, upload.writer = .ended (.ok size) := by
  have midway := stands.midway
  rcases filed with done | ⟨record, rest, call⟩
  · cases stands with
    | done _ _ writer => exact ⟨_, writer⟩
    | receiving _ phase | writing _ phase | interrupted _ phase | sealing _ phase
    | joining phase | filing phase | withdrawing phase | failed phase => cases phase.symm.trans done
    | asking phase =>
        rcases phase with phase | phase
        all_goals cases phase.symm.trans done
    | stopping undone | leaving _ undone | left _ undone | lost _ undone => exact absurd done undone
  · rw [call] at midway
    exact midway.2.1

theorem Upload.Stands.asked {upload : Upload} (stands : upload.Stands gone)
    (filed : upload.InCatalog) : ¬ upload.Unfiled := by
  have midway := stands.midway
  rcases filed with done | ⟨record, rest, call⟩
  · exact fun unfiled => stands.undone unfiled done
  · rw [call] at midway
    exact not_unfiled (by simp [midway.1]) (by simp [call]) (by simp [call])

theorem Upload.Stands.past {upload : Upload} {records : List Bytes} (stands : upload.Stands gone)
    (asked : ¬ upload.Unfiled) : upload.call ≠ .handOff records := by
  have midway := stands.midway
  intro call
  rw [call] at midway
  exact asked (.inl ⟨midway.1, .inr midway.2⟩)

/-- A move that leaves the record in the catalog leaves the blob alone, but for a
    step of the flush. -/
theorem Upload.Stands.filed_moves_blobs (stands : s.upload.Stands gone)
    (handle : act.takesHandle = true → ¬ gone) (moves : Moves disk s act s')
    (filed : s'.upload.InCatalog) :
    s'.service.blobs = s.service.blobs ∧
      (s'.disk = s.disk ∨ ∃ record step next reply,
        s.upload.call = .flushing record (.step step next) ∧
          disk.replies s.disk step reply s'.disk) := by
  cases moves with
  | cleared pending =>
      obtain ⟨_, undone, _, call, _⟩ := stands.pending pending
      rcases filed with done | ⟨_, _, flushing⟩
      · exact absurd done undone
      · cases call.symm.trans flushing
  | writer moves =>
      obtain ⟨runs, same⟩ := moves.same
      rw [same] at filed
      obtain ⟨size, writer⟩ := stands.stored filed
      rw [writer] at runs
      cases runs
  | caller moves =>
      cases moves with
      | removed =>
          rcases filed with done | ⟨_, _, flushing⟩
          · cases done
          · cases flushing
      | flushed call replied => exact ⟨rfl, .inr ⟨_, _, _, _, call, replied⟩⟩
      | _ => exact ⟨rfl, .inl rfl⟩

end

section

variable {disk : Disk δ} {root path : Option Path} {shelf : Shelf disk root path} {limit : Nat}
  {scene scene' : Scene δ} {deed : Deed}

theorem Scene.Turns.keyOf (turns : scene.Turns disk deed scene') (books : Books limit scene)
    {user : UserId} {key : DataKey} (known : scene.service.keyOf user = .ok key) :
    scene'.service.keyOf user = .ok key := by
  cases turns with
  | start started =>
      obtain ⟨_, _, service, _⟩ := Transfers.start_cases started
      refine Service.keyOf_mono ?_ (fun _ wrapped => ?_) known
      · rw [service]
      · rw [service]
        exact wrapped
  | act member _ _ moves =>
      have footprint := Footprint.of_moves (books.drafts _ member) moves
      exact Service.keyOf_mono footprint.master
        (fun _ wrapped => (footprint.wrappedKey? user).trans wrapped) known
  | errand _ errand => exact Service.keyOf_mono errand.master (errand.keys user) known

theorem Scene.Turns.config (turns : scene.Turns disk deed scene') (books : Books limit scene) :
    scene'.service.config = scene.service.config := by
  cases turns with
  | start started =>
      obtain ⟨_, _, service, _⟩ := Transfers.start_cases started
      simp only [service]
  | act member _ _ moves => exact (Footprint.of_moves (books.drafts _ member) moves).config
  | errand _ errand => exact errand.config

theorem Scene.Turns.ids (turns : scene.Turns disk deed scene') (books : Books limit scene) :
    scene'.service.ids.tape = scene.service.ids.tape ∧
      scene.service.ids.used ≤ scene'.service.ids.used := by
  cases turns with
  | start started =>
      obtain ⟨ids, tape, service, outcome⟩ := Transfers.start_cases started
      simp only [service]
      refine ⟨tape, ?_⟩
      rcases outcome with ⟨_, more⟩ | ⟨_, _, more, _⟩
      all_goals omega
  | @act before _ _ service _ member _ _ moves =>
      have ids : service.ids = scene.service.ids :=
        (Footprint.of_moves (books.drafts before member) moves).ids
      change service.ids.tape = scene.service.ids.tape ∧ scene.service.ids.used ≤ service.ids.used
      rw [ids]
      exact ⟨rfl, Nat.le_refl _⟩
  | errand _ errand =>
      rw [errand.ids]
      exact ⟨rfl, Nat.le_refl _⟩

theorem Scene.Turns.payload {id : FileId} (turns : scene.Turns disk deed scene')
    (past : ∀ upload ∈ scene.uploads, upload.fileId = id → upload.call ≠ .handOff []) :
    scene'.payload id = scene.payload id := by
  cases turns with
  | start => rfl
  | @act before act upload service d member =>
      dsimp only [Scene.after]
      split
      · rename_i same
        exact Upload.payloadAfter_of_call (past before member same.symm)
      · rfl
  | errand _ errand => rw [errand.payload]

theorem Scene.Steps.put (steps : scene.Steps disk deed scene') :
    scene'.service.conduct.put = scene.service.conduct.put ∨
      deed = .conduct scene'.service.conduct := by
  cases steps with
  | start started =>
      obtain ⟨_, _, service, _⟩ := Transfers.start_cases started
      refine .inl ?_
      simp only [service]
  | @act before upload act _ service d _ _ _ offers runs =>
      have moves : Moves disk ⟨scene.service, before, scene.disk⟩ act ⟨service, upload, d⟩ :=
        moves_of_offers offers runs
      exact .inl moves.put
  | enroll _ runs =>
      obtain ⟨_, _, rfl, _⟩ := Service.runs_enroll runs
      exact .inl rfl
  | delete _ runs =>
      obtain ⟨_, _, rfl, _⟩ := Service.runs_deleteRecord runs
      exact .inl rfl
  | clear _ runs =>
      obtain ⟨_, rfl, _⟩ := Service.runs_removeBlob runs
      exact .inl rfl
  | download runs =>
      rcases Download.runs_start runs with ⟨rfl, _⟩ | ⟨_, rfl, _⟩
      all_goals exact .inl rfl
  | load | tick => exact .inl rfl
  | conduct => exact .inr rfl

/-- Where the record of an upload is in the catalog after its move, all objects
    are as they were. -/
theorem Moved.shows {before upload : Upload} {act : Act} {name : String}
    (moved : Moved disk scene scene' before act upload) (books : Books limit scene)
    (shelved : Shelved shelf scene) (filed : upload.InCatalog) (named : IsBlobName name) :
    shelf.shows scene' name = shelf.shows scene name := by
  obtain ⟨blobs, same | ⟨record, step, next, reply, call, replied⟩⟩ :=
    (books.stands before moved.member).filed_moves_blobs moved.handle moved.moves filed
  · simp only at blobs same
    rw [Shelf.shows, blobs, same]
    rfl
  · simp only at blobs
    rw [Shelf.shows, blobs]
    exact (shelved.flushing before moved.member _ _ call).1 shelved.root named replied

/-- A file is kept: its blob is there, of the length that its record says, and
    carries what was written under the key of its owner. -/
def Shelf.Keeps (shelf : Shelf disk root path) (scene : Scene δ) (file : FileRecord) : Prop :=
  ∃ key data, scene.service.keyOf file.owner = .ok key ∧
    shelf.shows scene file.blobName = some data ∧ data.length = file.blobSize ∧
      Stream.Whole key data (scene.payload file.id) ∧
        (scene.payload file.id).length = file.fileSize

/-- A file is kept as long as its blob and what is known of its writes stay. -/
theorem Scene.Turns.keeps {file : FileRecord} (turns : scene.Turns disk deed scene')
    (books : Books limit scene) (keeps : shelf.Keeps scene file)
    (object : shelf.shows scene' file.blobName = shelf.shows scene file.blobName)
    (payload : scene'.payload file.id = scene.payload file.id) : shelf.Keeps scene' file := by
  obtain ⟨key, data, known, there, length, whole, size⟩ := keeps
  exact ⟨key, data, turns.keyOf books known, object.trans there, length, payload ▸ whole,
    payload ▸ size⟩

end

section

variable {disk : Disk δ} {root path : Option Path} {shelf : ConformingShelf disk root path}
  {limit : Nat} {scene scene' : Scene δ} {deed : Deed}

/-- Calls behave, and the store claims no success early. -/
def Scene.Conforms (limit : Nat) (scene : Scene δ) (deed : Deed) : Prop :=
  scene.Behaves limit deed ∧ ∀ conduct after, deed = .conduct conduct → conduct.put ≠ .early after

theorem Scene.Reaches.conforms {opening final : Scene δ}
    (reaches : Scene.Reaches disk (Scene.Conforms limit) opening final) :
    Scene.Reaches disk (Scene.Behaves limit) opening final :=
  reaches.mono fun _ _ conforms => conforms.1

/-- Nothing was written to what is still to be drawn. -/
def Scene.Unwritten (limit : Nat) (scene : Scene δ) : Prop :=
  ∀ n, scene.service.ids.used ≤ n → n < limit → scene.payload ⟨scene.service.ids.tape n⟩ = []

theorem Scene.Unwritten.turns (unwritten : scene.Unwritten limit) (books : Books limit scene)
    (turns : scene.Turns disk deed scene') : scene'.Unwritten limit := by
  intro n later small
  obtain ⟨tape, more⟩ := turns.ids books
  rw [tape]
  have before := Nat.le_trans more later
  refine (turns.payload fun upload member same => ?_).trans (unwritten n before small)
  exact absurd same (books.unused member before small).1

/-- The store claims no success before it has taken everything. -/
structure Scene.Timely (scene : Scene δ) : Prop where
  put : ∀ after, scene.service.conduct.put ≠ .early after
  late : ∀ upload ∈ scene.uploads, ∀ left taken, upload.writer ≠ .draining left taken .early
  drained : ∀ upload ∈ scene.uploads, ∀ size, upload.writer = .ended (.ok size) →
    upload.queue = []

namespace Scene.Timely

theorem turns {shelf : Shelf disk root path} (timely : scene.Timely) (books : Books limit scene)
    (shelved : Shelved shelf scene) (behaves : scene.Behaves limit deed)
    (put : ∀ after, scene'.service.conduct.put ≠ .early after)
    (turns : scene.Turns disk deed scene') : scene'.Timely where
  put := put
  late upload member := by
    cases turns.comes behaves shelved books member with
    | fresh begins => simp [begins.writer.1]
    | aside old => exact timely.late upload old
    | moved _ moved =>
        exact Upload.late_moves timely.put (timely.late _ moved.member) moved.moves
  drained upload member := by
    cases turns.comes behaves shelved books member with
    | fresh begins => simp [begins.writer.1]
    | aside old => exact timely.drained upload old
    | moved _ moved =>
        exact Upload.drained_moves (timely.late _ moved.member) (timely.drained _ moved.member)
          moved.moves

theorem reaches {shelf : Shelf disk root path} {opening final : Scene δ}
    (timely : opening.Timely) (books : Books limit opening) (shelved : Shelved shelf opening)
    (reaches : Scene.Reaches disk (Scene.Conforms limit) opening final) : final.Timely := by
  induction reaches with
  | refl => exact timely
  | @step middle last deed reached allowed steps ih =>
      have behind := reached.conforms
      refine ih.turns (books.reaches behind) (shelved.reaches books behind) allowed.1 ?_ steps.turns
      intro after
      rcases steps.put with same | same
      · rw [same]
        exact ih.put after
      · exact allowed.2 _ after same

end Scene.Timely

/-- The service keeps what it was given, and knows what is still on its way. -/
structure Custody (shelf : ConformingShelf disk root path) (limit : Nat) (scene : Scene δ) :
    Prop where
  timely : scene.Timely
  flows : ∀ upload ∈ scene.uploads, ∃ key, scene.service.keyOf upload.owner = .ok key ∧
    upload.Flows shelf key (shelf.shows scene upload.blobName) (scene.payload upload.fileId)
      (scene.chunk upload.fileId)
  kept : ∀ file ∈ scene.service.catalog.entries.files, shelf.Keeps scene file
  unwritten : scene.Unwritten limit

namespace Custody

section

variable (custody : Custody shelf limit scene) (books : Books limit scene)
  (shelved : Shelved shelf.toShelf scene) (behaves : scene.Behaves limit deed)
  (turns : scene.Turns disk deed scene')

include custody books turns shelved behaves

theorem flows_turns : ∀ upload ∈ scene'.uploads, ∃ key,
    scene'.service.keyOf upload.owner = .ok key ∧
      upload.Flows shelf key (shelf.shows scene' upload.blobName) (scene'.payload upload.fileId)
        (scene'.chunk upload.fileId) := by
  intro upload member
  cases turns.comes behaves shelved books member with
  | fresh begins more _ payload =>
      obtain ⟨key, encoder, known, created, present⟩ := begins.encoder
      have nothing : scene'.payload upload.fileId = [] := by
        rw [payload, begins.fileId]
        exact custody.unwritten _ (Nat.le_refl _) (by omega)
      rw [begins.belongs, nothing]
      refine ⟨key, turns.keyOf books known, fun _ _ => ⟨[], .nothing (.inl begins.writer.1), ?_⟩⟩
      rw [begins.writer.2]
      exact .receiving begins.stands.2.1 present (.of_create created)
  | aside old aside =>
      obtain ⟨key, known, flows⟩ := custody.flows upload old
      refine ⟨key, turns.keyOf books known, fun unfiled faithful => ?_⟩
      rw [aside.object ((books.stands upload old).undone unfiled), aside.payload, aside.chunk]
      exact flows unfiled faithful
  | @moved before act same moved =>
      subst same
      obtain ⟨key, known, flows⟩ := custody.flows before moved.member
      have file := moved.file books
      rw [file.owner, file.fileId, moved.payload, moved.chunk]
      exact ⟨key, turns.keyOf books known, flows.moves (books.stands before moved.member)
        moved.handle (behaves before moved.member rfl) shelved.root
        (books.isBlobName moved.member) (books.drafts before moved.member)
        (custody.timely.late before moved.member) moved.moves⟩

theorem kept_turns : ∀ file ∈ scene'.service.catalog.entries.files, shelf.Keeps scene' file := by
  have turned := turns
  have spared {file : FileRecord} (there : file ∈ scene.service.catalog.entries.files) :
      file.blobName ∉ scene.doomed := fun doomed => (books.doomed _ doomed).2.1 file there rfl
  have frozen {file : FileRecord} (there : file ∈ scene.service.catalog.entries.files) :
      scene'.payload file.id = scene.payload file.id := turns.payload fun upload member same =>
    have stands := books.stands upload member
    stands.past (stands.asked (books.kept file there upload member (.inl same.symm)).2.2)
  intro file still
  cases turns with
  | start started =>
      obtain ⟨_, _, service, _⟩ := Transfers.start_cases started
      have there : file ∈ scene.service.catalog.entries.files := by
        simp only [service] at still
        exact still
      exact turned.keeps books (custody.kept file there)
        (turned.shows shelved books (books.named file there) (spared there) (by simp)) rfl
  | errand idle errand =>
      have there := errand.files file still
      refine turned.keeps books (custody.kept file there)
        (turned.shows shelved books (books.named file there) (spared there) ?_) (frozen there)
      rintro id act rfl
      cases idle
  | @act before upload act service d member handle _ moves =>
      have moved := Moved.of_act books member handle moves
      rcases books.files_act member handle (behaves before member rfl) moves file still with
        ⟨there, filed⟩ | ⟨⟨size, blobSize, joins, stored, rfl⟩, filed, _⟩
      · refine turned.keeps books (custody.kept file there) ?_ (frozen there)
        -- The upload of the file itself leaves the blob alone once it is filed, any
        -- other one has a blob of another name.
        by_cases own : file.id = before.fileId ∨ file.blobName = before.blobName
        · exact moved.shows books shelved (filed own) (books.named file there)
        · refine turned.shows shelved books (books.named file there) (spared there) ?_
          rintro id act' same other present rfl name
          have id := (Deed.act.inj same).1
          rw [books.apart other present before member (.inl id.symm)] at name
          exact own (.inr name.symm)
      -- A new record: by now the whole plaintext has arrived in the blob.
      · obtain ⟨key, known, flows⟩ := custody.flows before member
        obtain ⟨data, there, length, whole, count⟩ :=
          flows.whole (books.stands before member) joins stored
        have payload : (scene.after before act service upload d).payload before.fileId =
            scene.payload before.fileId := by
          rw [moved.payload]
          exact Upload.payloadAfter_of_call (by simp [joins])
        exact ⟨key, data, turned.keyOf books known,
          (moved.shows books shelved filed (books.isBlobName member)).trans there, length,
          payload ▸ whole, payload ▸ count⟩

end

theorem turns (custody : Custody shelf limit scene) (books : Books limit scene)
    (shelved : Shelved shelf.toShelf scene) (behaves : scene.Behaves limit deed)
    (timely : scene'.Timely) (turns : scene.Turns disk deed scene') :
    Custody shelf limit scene' where
  timely := timely
  flows := custody.flows_turns books shelved behaves turns
  kept := custody.kept_turns books shelved behaves turns
  unwritten := custody.unwritten.turns books turns

/-- Along a run of a store that conforms, what is given to the service is kept. -/
theorem reaches {opening final : Scene δ} (custody : Custody shelf limit opening)
    (books : Books limit opening) (shelved : Shelved shelf.toShelf opening)
    (reaches : Scene.Reaches disk (Scene.Conforms limit) opening final) :
    Custody shelf limit final := by
  -- The books and the shelf have runs of their own, so custody alone is carried along.
  induction reaches with
  | refl => exact custody
  | @step middle last deed reached allowed steps ih =>
      have behind := reached.conforms
      exact ih.turns (books.reaches behind) (shelved.reaches books behind) allowed.1
        (custody.timely.reaches books shelved (.step reached allowed steps)) steps.turns

end Custody

end

end Strongroom
