import Strongroom.Proofs.Blob.Housing
import Strongroom.Proofs.Transfer.Delivery
import Strongroom.Proofs.Transfer.Outcome

/-! # The life of a file

Once its record is in the catalog nothing more is written to a file, and the
record stays until the owner deletes it. At every moment in between the blob is
whole, and a download gives back what was written.
-/

namespace Strongroom

variable {δ : Type}

theorem TransferConfig.bounds_of_validate {config : TransferConfig}
    (valid : config.validate = .ok ()) :
    (0 < config.blockSize ∧ config.blockSize ≤ Block.maxSize) ∧ 0 < config.handoffDepth ∧
      0 < config.downloadChunkSize := by
  unfold validate at valid
  split at valid
  · cases valid
  · rename_i sound
    unfold fault? at sound
    split at sound
    · cases sound
    · split at sound
      · cases sound
      · split at sound
        · cases sound
        · split at sound
          · cases sound
          · omega

namespace Scene

section

variable {disk : Disk δ} {root path : Option Path} {shelf : Shelf disk root path} {limit : Nat}
  {scene scene' opening final : Scene δ} {deed : Deed} {file : FileRecord} {id : FileId}

/-- Nothing more is written to a file. -/
structure IsFrozen (limit : Nat) (scene : Scene δ) (id : FileId) : Prop where
  asked : ∀ upload ∈ scene.uploads, upload.fileId = id → ¬ upload.Unfiled
  drawn : ∀ n, scene.service.ids.used ≤ n → n < limit → id ≠ ⟨scene.service.ids.tape n⟩

namespace IsFrozen

theorem of_file (books : Books limit scene) (there : file ∈ scene.service.catalog.entries.files) :
    scene.IsFrozen limit file.id where
  asked upload member same :=
    (books.stands upload member).asked (books.kept file there upload member (.inl same.symm)).2.2
  drawn n later small := ((books.undrawn n later small).1 file there).1

theorem turns (frozen : scene.IsFrozen limit id) (books : Books limit scene)
    (shelved : Shelved shelf scene) (behaves : scene.Behaves limit deed)
    (turns : scene.Turns disk deed scene') : scene'.IsFrozen limit id where
  asked upload member same := by
    cases turns.comes behaves shelved books member with
    | fresh begins more =>
        exact absurd (same.symm.trans begins.fileId)
          (frozen.drawn _ (Nat.le_refl _) (by omega))
    | aside old => exact frozen.asked upload old same
    | @moved before act own moved =>
        subst own
        intro unfiled
        refine frozen.asked before moved.member ((moved.file books).fileId.symm.trans same) ?_
        exact ((books.stands before moved.member).unfiled_moves moved.handle
          (behaves before moved.member rfl) moved.moves unfiled).1
  drawn n later small := by
    obtain ⟨tape, more⟩ := turns.ids books
    rw [tape]
    exact frozen.drawn n (Nat.le_trans more later) small

theorem reaches (frozen : opening.IsFrozen limit id) (books : Books limit opening)
    (shelved : Shelved shelf opening) (reaches : Reaches disk (Behaves limit) opening final) :
    final.payload id = opening.payload id := by
  have both : final.IsFrozen limit id ∧ final.payload id = opening.payload id := by
    induction reaches with
    | refl => exact ⟨frozen, rfl⟩
    | @step middle last deed reached behaves steps ih =>
        obtain ⟨frozen, same⟩ := ih
        have books := books.reaches reached
        refine ⟨frozen.turns books (shelved.reaches ‹_› reached) behaves steps.turns, ?_⟩
        refine (steps.turns.payload fun upload member own => ?_).trans same
        exact (books.stands upload member).past (frozen.asked upload member own)
  exact both.2

end IsFrozen

/-- A file is in the catalog for good, but for being deleted. -/
structure IsFiled (scene : Scene δ) (file : FileRecord) : Prop where
  there : file ∈ scene.service.catalog.entries.files
  filed : ∀ upload ∈ scene.uploads, upload.fileId = file.id → upload.Filed

namespace IsFiled

/-- Only the owner takes a file out of the catalog. -/
theorem there_steps (filed : scene.IsFiled file) (books : Books limit scene)
    (spared : deed ≠ .delete file.id file.owner) (steps : scene.Steps disk deed scene') :
    file ∈ scene'.service.catalog.entries.files := by
  obtain ⟨there, filed⟩ := filed
  rcases steps.keeps_file books.drafts
      (fun other member same => books.single other member file there (.inl same)) there with
    kept | ⟨deleted, _⟩ | ⟨upload, member, _, record, e, call, own⟩
  · exact kept
  · exact absurd deleted spared
  · have midway := (books.stands upload member).midway
    rw [call] at midway
    rcases filed upload member (midway.2.2.2.symm.trans own) with done | ⟨_, other⟩
    · cases midway.1.symm.trans done
    · cases call.symm.trans other

theorem steps (filed : scene.IsFiled file) (books : Books limit scene)
    (shelved : Shelved shelf scene) (behaves : scene.Behaves limit deed)
    (spared : deed ≠ .delete file.id file.owner) (steps : scene.Steps disk deed scene') :
    scene'.IsFiled file where
  there := filed.there_steps books spared steps
  filed upload member same := by
    cases steps.turns.comes behaves shelved books member with
    | fresh begins more =>
        exact absurd (same.symm.trans begins.fileId)
          ((IsFrozen.of_file books filed.there).drawn _ (Nat.le_refl _) (by omega))
    | aside old => exact filed.filed upload old same
    | @moved before act own moved =>
        subst own
        exact (books.stands before moved.member).filed_moves moved.handle
          (behaves before moved.member rfl) moved.moves
          (filed.filed before moved.member ((moved.file books).fileId.symm.trans same))

end IsFiled

end

section

variable {disk : Disk δ} {root path : Option Path} {limit : Nat} {opening scene : Scene δ}

/-- Whoever owns a file gets a payload: a download starts, unless no machine can
    have its buffer, and while the file is in the catalog it serves the payload
    to the end. -/
def Delivers (disk : Disk δ) (limit : Nat) (scene : Scene δ) (file : FileRecord)
    (payload : Bytes) : Prop :=
  ∀ result service d,
    Script.Runs disk scene.disk (Download.start scene.service file.id file.owner)
        (result, service) d →
      if maxBuffer < scene.service.config.readBufferSize then result = .error .panicked
      else
        ∃ download, result = .ok download ∧ ∀ later, Reaches disk (Conforms limit) scene later →
          file ∈ later.service.catalog.entries.files → ∀ pieces ending last d',
            Script.Runs disk later.disk (download.pieces later.service) (pieces, ending, last) d' →
              ending = .ok () ∧ pieces.flatten = payload ∧ ∀ piece ∈ pieces,
                piece ≠ [] ∧ piece.length ≤ scene.service.config.downloadChunkSize

/-- A scene without uploads, of a service that could be made and of a store that
    conforms, where the files in the catalog are kept. -/
structure OpensOn (shelf : ConformingShelf disk root path) (limit : Nat) (scene : Scene δ) : Prop
    extends scene.Opens limit where
  root : scene.service.blobs.root? = root
  path : scene.service.catalog.path? = path
  valid : scene.service.config.validate = .ok ()
  timely : ∀ after, scene.service.conduct.put ≠ .early after
  kept : ∀ file ∈ scene.service.catalog.entries.files, shelf.Keeps scene file
  unwritten : ∀ n, scene.service.ids.used ≤ n → n < limit →
    scene.payload ⟨scene.service.ids.tape n⟩ = []

namespace OpensOn

variable {shelf : ConformingShelf disk root path}

theorem shelved (opens : opening.OpensOn shelf limit) : Shelved shelf.toShelf opening :=
  opens.toOpens.shelved shelf.toShelf opens.root opens.path

theorem custody (opens : opening.OpensOn shelf limit) : Custody shelf limit opening where
  timely := ⟨opens.timely, by simp [opens.uploads], by simp [opens.uploads]⟩
  flows := by simp [opens.uploads]
  kept := opens.kept
  unwritten := opens.unwritten

theorem asks (opens : opening.OpensOn shelf limit) :
    0 < opening.service.config.downloadChunkSize :=
  (TransferConfig.bounds_of_validate opens.valid).2.2

end OpensOn

theorem Reaches.config (books : Books limit opening)
    (reaches : Reaches disk (Behaves limit) opening scene) :
    scene.service.config = opening.service.config := by
  induction reaches with
  | refl => rfl
  | step reached _ steps ih => exact (steps.turns.config (books.reaches reached)).trans ih

theorem Reaches.keyOf (books : Books limit opening)
    (reaches : Reaches disk (Behaves limit) opening scene) {user : UserId} {key : DataKey}
    (known : opening.service.keyOf user = .ok key) : scene.service.keyOf user = .ok key := by
  induction reaches with
  | refl => exact known
  | step reached _ steps ih => exact steps.turns.keyOf (books.reaches reached) ih

/-- A file that is kept, in the catalog at one moment and at a later one, is
    delivered. -/
theorem delivers_of_custody {shelf : ConformingShelf disk root path} {file : FileRecord}
    (custody : Custody shelf limit scene) (books : Books limit scene)
    (shelved : Shelved shelf.toShelf scene) (asks : 0 < scene.service.config.downloadChunkSize)
    (there : file ∈ scene.service.catalog.entries.files) :
    scene.Delivers disk limit file (scene.payload file.id) := by
  obtain ⟨key, data, known, shown, _⟩ := custody.kept file there
  intro result service d runs
  have started := shelf.runs_start shelved.root (books.named file there) (books.ownedRecord there)
    known shown runs
  split
  · rename_i large
    rw [started, if_pos large]
  · rename_i fits
    refine ⟨_, started.trans (if_neg fits), ?_⟩
    intro later reaches still pieces ending last d' serves
    have books' := books.reaches reaches.conforms
    have shelved' := shelved.reaches books reaches.conforms
    obtain ⟨key', data', known', shown', _, whole, size⟩ :=
      (custody.reaches books shelved reaches).kept file still
    rw [(IsFrozen.of_file books there).reaches books shelved reaches.conforms] at whole size
    obtain rfl := Except.ok.inj ((reaches.conforms.keyOf books known).symm.trans known')
    exact shelf.runs_pieces shelved'.root (books'.named file still) shown' whole size asks serves

/-- Along a run of a store that conforms, whatever uploads, deletions, downloads and
    enrolments come in between: every file in the catalog is kept, no two have a
    blob in common, and what was written to a file is delivered to its owner for
    as long as the file is there. Once its upload is through, that is until the
    owner deletes it. -/
theorem files_keep_what_was_uploaded {shelf : ConformingShelf disk root path}
    (opens : opening.OpensOn shelf limit) (reaches : Reaches disk (Conforms limit) opening scene) :
    (∀ file ∈ scene.service.catalog.entries.files, shelf.Keeps scene file) ∧
      (∀ file ∈ scene.service.catalog.entries.files,
        ∀ other ∈ scene.service.catalog.entries.files,
          file.blobName = other.blobName → file = other) ∧
        ∀ file ∈ scene.service.catalog.entries.files,
          (∀ later, Reaches disk (Conforms limit) scene later →
            file ∈ later.service.catalog.entries.files →
              later.Delivers disk limit file (scene.payload file.id)) ∧
          ((∀ upload ∈ scene.uploads, upload.fileId = file.id → upload.Filed) →
            ∀ later,
              Reaches disk (fun scene deed => scene.Conforms limit deed ∧
                  deed ≠ .delete file.id file.owner) scene later →
                file ∈ later.service.catalog.entries.files) := by
  have books := opens.books.reaches reaches.conforms
  have shelved := opens.shelved.reaches opens.books reaches.conforms
  have custody := opens.custody.reaches opens.books opens.shelved reaches
  refine ⟨custody.kept, fun file there other there' same =>
    books.single file there other there' (.inr same), fun file there => ⟨?_, ?_⟩⟩
  · intro later behind still
    have books' := books.reaches behind.conforms
    have asks : 0 < later.service.config.downloadChunkSize := by
      rw [(reaches.trans behind).conforms.config opens.books]
      exact opens.asks
    -- What was uploaded is fixed, so the custody of the later scene speaks of it.
    rw [← (IsFrozen.of_file books there).reaches books shelved behind.conforms]
    exact delivers_of_custody (custody.reaches books shelved behind) books'
      (shelved.reaches books behind.conforms) asks still
  · intro filed later behind
    have kept : later.IsFiled file := by
      induction behind with
      | refl => exact ⟨there, filed⟩
      | step reached allowed steps ih =>
          have reached := reached.mono fun _ _ allowed => allowed.1.1
          exact ih.steps (books.reaches reached) (shelved.reaches books reached) allowed.1.1
            allowed.2 steps
    exact kept.there

end

theorem sample_opensOn : sample.OpensOn (ConformingShelf.memory FileTree.disk none) 2 where
  toOpens := sample_opens
  root := rfl
  path := rfl
  valid := rfl
  timely := by simp [sample]
  kept := by simp [sample, Catalog.entries]
  unwritten _ _ _ := rfl

/-- A folder for blobs, with room for the file of a catalog beside it. -/
def sampleHousing : Housing ⟨"/lockbox/blobs"⟩ (some ⟨"/lockbox/catalog.json"⟩) where
  tree := { entries := [(["lockbox"], .folder), (["lockbox", "blobs"], .folder)] }
  ready := by
    refine ⟨["lockbox", "blobs"], by rfl, fun key component => ?_⟩
    simp [FileTree.find?, List.lookup_cons]
  outside file there target beside name _ := by
    obtain rfl : ⟨"/lockbox/catalog.json"⟩ = file := Option.some.inj there
    have away {last : String} : ["lockbox", last] ≠ ["lockbox", "blobs"] ++ [name] := by simp
    rw [List.mem_cons, List.mem_singleton] at beside
    rcases beside with rfl | rfl
    · exact away
    · exact away

/-- The sample with its blobs in a folder and its catalog in a file. -/
def housed : Scene (Housing ⟨"/lockbox/blobs"⟩ (some ⟨"/lockbox/catalog.json"⟩)) where
  service :=
    { sample.service with
      blobs := .folder ⟨"/lockbox/blobs"⟩
      catalog := .file ⟨"/lockbox/catalog.json"⟩ sample.service.catalog.entries }
  disk := sampleHousing

theorem housed_opensOn : housed.OpensOn (ConformingShelf.folder _ _) 2 where
  uploads := rfl
  dropped := rfl
  doomed := rfl
  within := by decide
  injective := sample_opens.injective
  named := by simp [housed, sample, Catalog.entries]
  single := by simp [housed, sample, Catalog.entries]
  undrawn := by simp [housed, sample, Catalog.entries]
  root := rfl
  path := rfl
  valid := rfl
  timely := by simp [housed, sample]
  kept := by simp [housed, sample, Catalog.entries]
  unwritten _ _ _ := rfl

/-- A scene with one upload, whose handle is not dropped. -/
structure HasOne (scene : Scene δ) (service : Service) (upload : Upload) (d : δ)
    (chunk payload : Bytes) : Prop where
  service : scene.service = service
  uploads : scene.uploads = [upload]
  disk : scene.disk = d
  dropped : scene.dropped = []
  chunk : scene.chunk upload.fileId = chunk
  payload : scene.payload upload.fileId = payload

section

variable {disk : Disk δ} {limit : Nat} {opening scene : Scene δ} {before : Upload}
  {service : Service} {d : δ} {chunk payload : Bytes} {script : Script (Service × Upload)}

theorem HasOne.steps (act : Act) (service' : Service) (upload : Upload) (d' : δ)
    (one : scene.HasOne service before d chunk payload) (same : upload.fileId = before.fileId)
    (held : ∀ inside, act ≠ .drop inside) (behaves : before.Behaves act)
    (free : act = .caller → before.InsertDue → ∀ record rest, before.call ≠ .flushing record rest)
    (offers : before.Offers service act script)
    (runs : Script.Runs disk d script (service', upload) d') :
    ∃ scene', scene.Conforms limit (.act before.fileId act) ∧
      scene.Steps disk (.act before.fileId act) scene' ∧
        scene'.HasOne service' upload d' (before.chunkAfter act chunk)
          (before.payloadAfter act chunk payload) := by
  obtain ⟨rfl, uploads, rfl, dropped, rfl, rfl⟩ := one
  have single {other : Upload} (member : other ∈ scene.uploads) : other = before := by
    rw [uploads] at member
    exact List.mem_singleton.1 member
  have steps : scene.Steps disk (.act before.fileId act)
      (scene.after before act service' upload d') := by
    refine .act (by simp [uploads]) (by simp [dropped]) ?_ offers runs
    intro called due other member
    rw [single member]
    exact free called due
  have conforms : scene.Conforms limit (.act before.fileId act) := by
    refine ⟨fun other member _ => ?_, by simp⟩
    rw [single member]
    exact behaves
  refine ⟨_, conforms, steps, rfl, ?_, rfl, ?_, ?_, ?_⟩
  · simp [after, Transfers.store, Transfers.modify, uploads, same]
  · cases act with
    | drop inside => exact absurd rfl (held inside)
    | _ => exact dropped
  · rw [same]
    exact if_pos rfl
  · rw [same]
    exact if_pos rfl

theorem HasOne.act (act : Act) (service' : Service) (upload : Upload) (d' : δ)
    (one : scene.HasOne service before d chunk payload)
    (reaches : Reaches disk (Conforms limit) opening scene) (same : upload.fileId = before.fileId)
    (held : ∀ inside, act ≠ .drop inside) (behaves : before.Behaves act)
    (free : act = .caller → before.InsertDue → ∀ record rest, before.call ≠ .flushing record rest)
    (offers : before.Offers service act script)
    (runs : Script.Runs disk d script (service', upload) d') :
    ∃ scene', Reaches disk (Conforms limit) opening scene' ∧
      scene'.HasOne service' upload d' (before.chunkAfter act chunk)
        (before.payloadAfter act chunk payload) := by
  obtain ⟨scene', conforms, steps, one⟩ :=
    one.steps act service' upload d' same held behaves free offers runs
  exact ⟨scene', .step reaches conforms steps, one⟩

end

theorem sample_write (service : Service) :
    sampleUpload.write service [1, 2, 3] =
      (service,
        { sampleUpload with
          phase := .writing
          encoder := some { sampleEncoder with pending := [1, 2, 3], received := 3 }
          call := .handOff [] }) := by
  have short (key : DataKey) (random : Entropy) :
      Stream.Encoder.sealFull key 1024 (by decide) [1, 2, 3] random [] =
        (.ok [], [1, 2, 3], random) := by
    rw [Stream.Encoder.sealFull, dif_neg (by simp)]
    rfl
  simp only [Upload.write, Upload.refuse?, sampleUpload, sampleEncoder, Bool.false_eq_true,
    if_false, Stream.Encoder.write, List.nil_append, short]
  rfl

/-- The first upload of the sample takes three bytes, and its commit returns with
    their record. -/
theorem sample_returns : ∃ (scene final : Scene FileTree) (upload : Upload) (file : FileRecord),
    Reaches FileTree.disk (Conforms 2) sample scene ∧
      scene.Conforms 2 (.act upload.fileId .caller) ∧
        scene.Steps FileTree.disk (.act upload.fileId .caller) final ∧
          final.uploads = [upload] ∧ upload.fileId = file.id ∧ upload.phase = .done ∧
            upload.answer? = some (.ok (some file)) ∧
              final.service.catalog.entries.files = [file] ∧ final.payload file.id = [1, 2, 3] := by
  let record := Stream.record true
    (Block.encryptWith sampleEncoder.key (sample.service.random.peek Aead.nonceSize) [1, 2, 3])
  let draft : BlobDraft := ⟨sampleUpload.blobName, sampleUpload.blobName, 0, []⟩
  let full : BlobDraft := { draft with taken := 0 + record.length, held := [record] }
  -- The service and the upload as one act follows the other.
  let writing : Upload :=
    { sampleUpload with
      phase := .writing
      encoder := some { sampleEncoder with pending := [1, 2, 3], received := 3 }
      call := .handOff [] }
  let written : Upload := { writing with phase := .receiving, call := .answered (.ok none) }
  let second : Service :=
    { sampleService with random := (sampleService.random.draw Aead.nonceSize).2 }
  let sealing : Upload :=
    { written with phase := .committing, encoder := none, call := .handOffFinal record 3 }
  let joining : Upload :=
    { sealing with queue := [record], sending := false, held := false, call := .joinForSize 3 }
  let begun : Upload := { joining with writer := .storing draft }
  let taken : Upload := { begun with queue := [], writer := .storing full }
  let third : Service :=
    { second with blobs := .memory [(draft.key, [record].flatten)] }.note .put draft.name
  let stored : Upload := { taken with writer := .ended (.ok full.taken) }
  let file : FileRecord := stored.recordOf third 3 full.taken
  let fourth : Service :=
    { third.note .insert (toString file.id) with
      catalog := .memory { sample.service.catalog.entries with files := [file] } }
  let flushing : Upload := { stored with call := .flushing file (.done (.ok ())) }
  let done : Upload := { flushing with phase := .done, call := .answered (.ok (some file)) }
  have begins :
      Script.Runs FileTree.disk {} (second.blobs.begin joining.blobName) (.ok draft) {} := by
    change Script.Runs FileTree.disk {} ((BlobStore.memory []).begin (Uuid.toText ⟨1⟩)) _ _
    simp only [BlobStore.begin, BlobStore.storedName_toText, BlobStore.meansFolder_toText,
      Bool.false_eq_true, if_false]
    exact .done
  have one : HasOne { sample with toTransfers := ⟨sampleService, [sampleUpload]⟩ } sampleService
      sampleUpload {} [] [] := ⟨rfl, rfl, rfl, rfl, rfl, rfl⟩
  have run : Reaches FileTree.disk (Conforms 2) sample
      { sample with toTransfers := ⟨sampleService, [sampleUpload]⟩ } := by
    refine .single ⟨?_, by simp⟩ (.start sample_start)
    rw [Behaves, sample_start]
    decide
  obtain ⟨s₁, run, one⟩ := one.act (.write [1, 2, 3]) sampleService writing {} run rfl (by simp)
    trivial (by simp) (.write ⟨rfl, by simp [sampleUpload]⟩) (by rw [sample_write]; exact .done)
  obtain ⟨s₂, run, one⟩ := one.act .caller sampleService written {} run rfl (by simp) trivial
    (by simp [writing]) (.caller rfl) .done
  obtain ⟨s₃, run, one⟩ := one.act .commit second sealing {} run rfl (by simp) trivial
    (by simp) (.commit ⟨trivial, by simp [written]⟩) .done
  obtain ⟨s₄, run, one⟩ := one.act .caller second joining {} run rfl (by simp) trivial
    (by simp [sealing]) (.caller rfl) .done
  obtain ⟨s₅, run, one⟩ := one.act .writer second begun {} run rfl (by simp) trivial
    (by simp) (.writer rfl) (Script.runs_bind.2 ⟨.ok draft, {}, begins, .done⟩)
  obtain ⟨s₆, run, one⟩ := one.act .writer second taken {} run rfl (by simp) trivial
    (by simp) (.writer rfl) .done
  obtain ⟨s₇, run, one⟩ := one.act .writer third stored {} run rfl (by simp) trivial
    (by simp) (.writer rfl) .done
  obtain ⟨s₈, run, one⟩ := one.act .caller fourth flushing {} run rfl (by simp) trivial
    (by simp [stored, taken, begun, joining]) (.caller rfl) .done
  obtain ⟨s₉, conforms, steps, one⟩ := one.steps .caller fourth done {} rfl (by simp) trivial
    (by rintro - ⟨_, _, ⟨⟩, _⟩) (.caller rfl) .done
  refine ⟨s₈, s₉, done, file, run, conforms, steps, one.uploads, rfl, rfl, rfl, ?_, one.payload⟩
  rw [one.service]
  rfl

theorem sample_commits : ∃ (final : Scene FileTree) (file : FileRecord),
    Reaches FileTree.disk (Conforms 2) sample final ∧
      file ∈ final.service.catalog.entries.files ∧ final.payload file.id = [1, 2, 3] ∧
        ∀ upload ∈ final.uploads, upload.phase = .done := by
  obtain ⟨_, final, upload, file, reaches, conforms, steps, uploads, _, done, _, files, payload⟩ :=
    sample_returns
  refine ⟨final, file, .step reaches conforms steps, by simp [files], payload, ?_⟩
  simp [uploads, done]

/-- Three bytes that the first upload of the sample takes are kept and delivered. Where
    blobs are kept in a folder each file is kept, too. -/
theorem files_keep_three_bytes :
    (∃ (final : Scene FileTree) (file : FileRecord),
      sample.OpensOn (ConformingShelf.memory FileTree.disk none) 2 ∧
        Reaches FileTree.disk (Conforms 2) sample final ∧
          file ∈ final.service.catalog.entries.files ∧
            (∀ upload ∈ final.uploads, upload.fileId = file.id → upload.Filed) ∧
              final.payload file.id = [1, 2, 3] ∧
                (ConformingShelf.memory FileTree.disk none).Keeps final file ∧
                  final.Delivers FileTree.disk 2 file [1, 2, 3]) ∧
      housed.OpensOn (ConformingShelf.folder _ _) 2 ∧
        ∀ scene, Reaches (Housing.disk _ _) (Conforms 2) housed scene →
          ∀ file ∈ scene.service.catalog.entries.files,
            (ConformingShelf.folder _ _).Keeps scene file := by
  obtain ⟨final, file, reaches, there, payload, done⟩ := sample_commits
  obtain ⟨kept, _, delivered⟩ := files_keep_what_was_uploaded sample_opensOn reaches
  have delivers := (delivered file there).1 final .refl there
  rw [payload] at delivers
  refine ⟨⟨final, file, sample_opensOn, reaches, there,
    fun upload member _ => .inl (done upload member), payload, kept file there, delivers⟩,
    housed_opensOn, fun scene reaches => ?_⟩
  exact (files_keep_what_was_uploaded housed_opensOn reaches).1

end Scene

end Strongroom
