import Strongroom.Proofs.Transfer.Lifecycle
import Strongroom.Proofs.Transfer.Release

/-! # Room for what a configuration asks

A configuration without a fault fits the encoder, and a download never asks its
decoder for nothing. It may still ask for a queue or for a read buffer that no
machine can have, and nothing else makes a transfer break down.
-/

namespace Strongroom

variable {δ : Type}

namespace Upload

/-- A user whose key resolves gives a file a name that it can have. -/
def Admits (service : Service) (owner : UserId) (fileName : String) : Prop :=
  (∃ name, checkFileName fileName = .ok name) ∧ ∃ key, service.keyOf owner = .ok key

/-- What a start comes to, by the room that there is for its queue. -/
def StartsWithin (service : Service) (owner : UserId) (fileName : String) {α : Type} :
    Except Halt α → Prop
  | .ok _ => Admits service owner fileName ∧ service.config.handoffDepth ≤ maxQueue
  | .error .panicked => Admits service owner fileName ∧ maxQueue < service.config.handoffDepth
  | .error (.failed _) => ¬ Admits service owner fileName

theorem exists_encoder {config : TransferConfig} (valid : config.validate = .ok ())
    (key : DataKey) : ∃ encoder, Stream.Encoder.create key config.blockSize = .ok encoder :=
  ⟨_, dif_pos (TransferConfig.bounds_of_validate valid).1⟩

theorem startsWithin {service : Service} (valid : service.config.validate = .ok ())
    (owner : UserId) (fileName : String) :
    StartsWithin service owner fileName (start service owner fileName).1 := by
  unfold start
  cases name : checkFileName fileName with
  | error fault =>
      rintro ⟨⟨trimmed, named⟩, _⟩
      rw [name] at named
      cases named
  | ok trimmed =>
      cases known : service.keyOf owner with
      | error e =>
          rintro ⟨_, key, resolved⟩
          rw [known] at resolved
          cases resolved
      | ok key =>
          have admits : Admits service owner fileName := ⟨⟨trimmed, name⟩, key, known⟩
          obtain ⟨encoder, created⟩ := exists_encoder valid key
          simp only [created]
          split
          · rename_i large
            exact ⟨admits, large⟩
          · rename_i small
            exact ⟨admits, Nat.le_of_not_lt small⟩

theorem startsWithin_transfers {transfers : Transfers}
    (valid : transfers.service.config.validate = .ok ()) (owner : UserId) (fileName : String) :
    StartsWithin transfers.service owner fileName (transfers.start owner fileName).1 := by
  have within := startsWithin valid owner fileName
  unfold Transfers.start
  cases began : start transfers.service owner fileName with
  | mk outcome service =>
      rw [began] at within
      rcases outcome with (e | _) | upload
      · exact within
      · exact within
      · exact within

theorem StartsWithin.panicked_iff {service : Service} {owner : UserId} {fileName : String}
    {α : Type} {result : Except Halt α} (within : StartsWithin service owner fileName result) :
    result = .error .panicked ↔
      Admits service owner fileName ∧ maxQueue < service.config.handoffDepth := by
  rcases result with (e | _) | value
  · exact ⟨fun panics => (by cases panics), fun ⟨admits, _⟩ => absurd admits within⟩
  · exact ⟨fun _ => within, fun _ => rfl⟩
  · exact ⟨fun panics => (by cases panics), fun ⟨_, large⟩ => absurd within.2 (by omega)⟩

/-- An upload whose queue can have some records, and whose encoder never holds a
    whole block between two calls. -/
structure HasRoom (depth : Nat) (upload : Upload) : Prop where
  capacity : upload.capacity = depth
  idle : ∀ encoder, upload.encoder = some encoder → encoder.IsIdle

namespace HasRoom

variable {depth : Nat} {disk : Disk δ} {s s' : Spot δ} {act : Act}

theorem callerMoves (room : s.upload.HasRoom depth) (moves : CallerMoves disk s act s') :
    s'.upload.HasRoom depth := by
  have capacity : s'.upload.capacity = depth :=
    (Footprint.of_callerMoves moves).file.capacity.trans room.capacity
  refine ⟨capacity, fun encoder there => ?_⟩
  cases moves with
  | stop | sealed => cases there
  | @opened _ data _ encoder _ _ _ _ _ _ _ wrote =>
      obtain ⟨_, _, next, _, wrote', _, idle, _⟩ := encoder.write_carries data s.service.random
      rw [wrote'] at wrote
      cases wrote
      cases there
      exact idle
  | deny enters =>
      rw [enters.same] at there
      exact room.idle encoder there
  | dropped =>
      unfold Upload.drop at there
      split at there
      · exact room.idle encoder there
      · exact room.idle encoder there
      · cases there
  | _ => exact room.idle encoder there

theorem moves (room : s.upload.HasRoom depth) (moves : Moves disk s act s') :
    s'.upload.HasRoom depth := by
  cases moves with
  | caller moves => exact room.callerMoves moves
  | cleared => exact ⟨room.capacity, room.idle⟩
  | writer moves =>
      rw [moves.same.2]
      exact ⟨room.capacity, room.idle⟩

theorem seals {upload : Upload} {encoder : Stream.Encoder} (room : upload.HasRoom depth)
    (present : upload.encoder = some encoder) (random : Entropy) :
    (∀ data, ∃ records next random',
        encoder.write data random = (.ok records, next, random')) ∧
      ∃ record random', encoder.finish random = (.ok record, random') := by
  refine ⟨fun data => ?_, ?_⟩
  · obtain ⟨records, _, next, random', wrote, _⟩ := encoder.write_carries data random
    exact ⟨records, next, random', wrote⟩
  · obtain ⟨record, random', finished, _⟩ :=
      Stream.Encoder.finish_whole (room.idle encoder present) random
    exact ⟨record, random', finished⟩

end HasRoom

end Upload

namespace Download

/-- What a start comes to, by the room that there is for its buffer. -/
def StartsWithin (disk : Disk δ) (service : Service) (d : δ) (id : FileId) (user : UserId) :
    Except Halt Download → Prop
  | .ok download =>
      service.config.readBufferSize ≤ maxBuffer ∧
        download.chunkSize = service.config.downloadChunkSize
  | .error .panicked =>
      maxBuffer < service.config.readBufferSize ∧
        ∃ record key after, service.ownedRecord id user = .ok record ∧
          service.keyOf record.owner = .ok key ∧
            Script.Runs disk d (service.blobs.find record.blobName) (.ok ()) after
  | .error (.failed _) => True

/-- Some pieces are asked for, with whatever goes on in between. -/
inductive Serves (disk : Disk δ) (first : Download) : Download → Prop where
  | refl : Serves disk first first
  | next {service : Service} {download later : Download} {answer : Except Error (Option Bytes)}
      {d d' : δ} :
    Serves disk first download →
      Script.Runs disk d (download.next service) (answer, later) d' → Serves disk first later

variable {disk : Disk δ} {service after : Service} {first download later : Download} {d d' : δ}

theorem startsWithin {id : FileId} {user : UserId} {result : Except Halt Download}
    (runs : Script.Runs disk d (start service id user) (result, after) d') :
    StartsWithin disk service d id user result := by
  unfold start at runs
  split at runs
  · cases runs
    trivial
  · rename_i record owned
    split at runs
    · cases runs
      trivial
    · rename_i key known
      obtain ⟨found, d₁, looked, rest⟩ := Script.runs_bind.1 runs
      split at rest
      · cases rest
        trivial
      · cases rest
        trivial
      · split at rest
        · rename_i large
          obtain ⟨⟨⟩, rfl⟩ := Script.runs_pure.1 rest
          exact ⟨large, record, key, _, owned, known, looked⟩
        · rename_i small
          obtain ⟨⟨⟩, rfl⟩ := Script.runs_pure.1 rest
          exact ⟨Nat.le_of_not_lt small, rfl⟩

@[simp] theorem chunkSize_advance (download : Download) :
    download.advance.2.chunkSize = download.chunkSize := by
  unfold advance
  split
  · rfl
  · split
    · rfl
    · rfl
    · split
      all_goals rfl

theorem chunkSize_load (runs : Script.Runs disk d (download.load service) later d') :
    later.chunkSize = download.chunkSize := by
  unfold load at runs
  split at runs
  · cases runs
    rfl
  · obtain ⟨read, _, _, rest⟩ := Script.runs_bind.1 runs
    cases read with
    | error text | ok data =>
        obtain ⟨piece, _, _, rest⟩ := Script.runs_bind.1 rest
        cases rest
        rfl

theorem Serves.chunkSize (serves : Serves disk first download) :
    download.chunkSize = first.chunkSize := by
  induction serves with
  | refl => rfl
  | @next service download later answer d d' _ runs ih =>
      obtain ⟨loaded, d₁, loads, rest⟩ := Script.runs_bind.1 runs
      obtain ⟨served, rfl⟩ := Script.runs_pure.1 rest
      calc later.chunkSize
        _ = loaded.advance.2.chunkSize := congrArg (fun pair => pair.2.chunkSize) served
        _ = loaded.chunkSize := chunkSize_advance loaded
        _ = download.chunkSize := chunkSize_load loads
        _ = first.chunkSize := ih

end Download

namespace Scene

variable {disk : Disk δ} {allows : Scene δ → Deed → Prop} {opening scene scene' : Scene δ}
  {deed : Deed}

/-- The configuration stands, and every upload has the room that it gives. -/
structure Roomy (config : TransferConfig) (scene : Scene δ) : Prop where
  same : scene.service.config = config
  drafts : ∀ upload ∈ scene.uploads, upload.OwnsDraft
  rooms : ∀ upload ∈ scene.uploads,
    upload.HasRoom config.handoffDepth ∧ config.handoffDepth ≤ maxQueue

namespace Roomy

variable {config : TransferConfig}

theorem valid (roomy : scene.Roomy config) (valid : config.validate = .ok ()) :
    scene.service.config.validate = .ok () := by
  rw [roomy.same]
  exact valid

theorem start {transfers : Transfers} {owner : UserId} {fileName : String}
    {result : Except Halt FileId} (roomy : scene.Roomy config) (valid : config.validate = .ok ())
    (started : scene.toTransfers.start owner fileName = (result, transfers)) :
    Roomy config { scene with toTransfers := transfers } := by
  obtain ⟨ids, _, service, outcome⟩ := Transfers.start_cases started
  have same : transfers.service.config = config := by
    rw [service]
    exact roomy.same
  rcases outcome with ⟨uploads, _⟩ | ⟨upload, uploads, _, begins⟩
  · exact ⟨same, fun other member => roomy.drafts other (uploads ▸ member),
      fun other member => roomy.rooms other (uploads ▸ member)⟩
  · obtain ⟨key, encoder, _, created, present⟩ := begins.encoder
    have fits : config.handoffDepth ≤ maxQueue := by
      have within := Upload.startsWithin_transfers (roomy.valid valid) owner fileName
      unfold Transfers.start at within started
      split at started
      · cases started
        simp at uploads
      · rename_i began
        rw [began] at within
        rw [← roomy.same]
        exact within.2
    refine ⟨same, fun other member => ?_, fun other member => ?_⟩
    · rcases List.mem_append.1 (uploads ▸ member) with old | new
      · exact roomy.drafts other old
      · rw [List.mem_singleton.1 new]
        intro draft writes
        rw [begins.writer.1] at writes
        cases writes
    · rcases List.mem_append.1 (uploads ▸ member) with old | new
      · exact roomy.rooms other old
      · rw [List.mem_singleton.1 new]
        refine ⟨⟨begins.capacity.trans (congrArg _ roomy.same), fun encoder' there => ?_⟩, fits⟩
        rw [present] at there
        cases there
        exact (Stream.Encoder.idle_create created).2.2.2.2

theorem steps (roomy : scene.Roomy config) (valid : config.validate = .ok ())
    (steps : scene.Steps disk deed scene') : scene'.Roomy config := by
  cases steps.turns with
  | start started => exact roomy.start valid started
  | @act before upload act service d member _ _ moves =>
      have owns := roomy.drafts before member
      have footprint := Footprint.of_moves owns moves
      refine ⟨footprint.config.trans roomy.same, fun other there => ?_, fun other there => ?_⟩
      · rcases Transfers.mem_store.1 there with ⟨old, _⟩ | ⟨rfl, _⟩
        · exact roomy.drafts other old
        · exact owns.moves moves
      · obtain ⟨room, fits⟩ := roomy.rooms before member
        rcases Transfers.mem_store.1 there with ⟨old, _⟩ | ⟨rfl, _⟩
        · exact roomy.rooms other old
        · exact ⟨room.moves moves, fits⟩
  | errand _ errand =>
      refine ⟨errand.config.trans roomy.same, fun other there => ?_, fun other there => ?_⟩
      · exact roomy.drafts other (errand.uploads ▸ there)
      · exact roomy.rooms other (errand.uploads ▸ there)

theorem reaches (roomy : opening.Roomy config) (valid : config.validate = .ok ())
    (reaches : Reaches disk allows opening scene) : scene.Roomy config := by
  induction reaches with
  | refl => exact roomy
  | step _ _ steps ih => exact ih.steps valid steps

end Roomy

/-- An upload from a stream breaks down where its start does, and nowhere else. -/
theorem upload_panics_iff {transfers after : Transfers} {owner : UserId} {fileName : String}
    {items : List Inbound} {result : Except Halt FileRecord} {d d' : δ}
    (runs : Script.Runs disk d (transfers.upload owner fileName items) (result, after) d') :
    result = .error .panicked ↔ (transfers.start owner fileName).1 = .error .panicked := by
  unfold Transfers.upload at runs
  split at runs
  · rename_i halt begun started
    cases runs
    rw [started]
    simp
  · rename_i id begun started
    rw [started]
    obtain ⟨fed, _, _, rest⟩ := Script.runs_bind.1 runs
    split at rest
    · cases rest
      simp
    · cases rest
      simp
    · obtain ⟨settled, _, _, rest⟩ := Script.runs_bind.1 rest
      cases rest
      simp

/-- Under a configuration without a fault a start breaks down only if no machine
    can have its queue, and a download only if no machine can have its buffer. The
    block size is never refused, every queue has room for some records, no write
    and no last record fails to be sealed, and no decoder is asked for nothing. -/
theorem breaks_down_only_for_want_of_room (valid : opening.service.config.validate = .ok ())
    (empty : opening.uploads = []) (reaches : Reaches disk allows opening scene) :
    let config := opening.service.config
    scene.service.config = config ∧
      (∀ key, ∃ encoder, Stream.Encoder.create key config.blockSize = .ok encoder) ∧
      (∀ owner fileName,
        Upload.StartsWithin scene.service owner fileName
          (scene.toTransfers.start owner fileName).1) ∧
      (∀ owner fileName items result after d,
        Script.Runs disk scene.disk (scene.toTransfers.upload owner fileName items)
            (result, after) d →
          (result = .error .panicked ↔
            Upload.Admits scene.service owner fileName ∧ maxQueue < config.handoffDepth)) ∧
      (∀ upload ∈ scene.uploads,
        0 < upload.capacity ∧ upload.capacity ≤ maxQueue ∧
          ∀ encoder, upload.encoder = some encoder → ∀ random,
            (∀ data, ∃ records next random',
              encoder.write data random = (.ok records, next, random')) ∧
            ∃ record random', encoder.finish random = (.ok record, random')) ∧
      ∀ id user result after d,
        Script.Runs disk scene.disk (Download.start scene.service id user) (result, after) d →
          Download.StartsWithin disk scene.service scene.disk id user result ∧
            ∀ download, result = .ok download → ∀ later, Download.Serves disk download later →
              0 < later.chunkSize := by
  intro config
  have roomy : scene.Roomy config := by
    refine Roomy.reaches ⟨rfl, ?_, ?_⟩ valid reaches
    all_goals simp [empty]
  have valid' := roomy.valid valid
  have bounds := TransferConfig.bounds_of_validate valid
  refine ⟨roomy.same, Upload.exists_encoder valid, Upload.startsWithin_transfers valid', ?_, ?_, ?_⟩
  · intro owner fileName items result after d runs
    rw [upload_panics_iff runs, (Upload.startsWithin_transfers valid' owner fileName).panicked_iff,
      roomy.same]
  · intro upload member
    obtain ⟨room, fits⟩ := roomy.rooms upload member
    rw [room.capacity]
    exact ⟨bounds.2.1, fits, fun encoder present random => room.seals present random⟩
  · intro id user result after d runs
    have within := Download.startsWithin runs
    refine ⟨within, ?_⟩
    rintro download rfl later serves
    rw [serves.chunkSize, within.2, roomy.same]
    exact bounds.2.2

/-- The first upload of the sample has room for one record, and seals what it is
    given. -/
theorem sample_has_room :
    sample.service.config.validate = .ok () ∧ sample.uploads = [] ∧
      ∃ scene, Reaches FileTree.disk (fun _ _ => True) sample scene ∧
        sampleUpload ∈ scene.uploads ∧ sampleUpload.capacity = 1 ∧
          ∀ random, ∃ record random', sampleEncoder.finish random = (.ok record, random') := by
  let started : Scene FileTree := { sample with toTransfers := ⟨sampleService, [sampleUpload]⟩ }
  have reaches : Reaches FileTree.disk (fun _ _ => True) sample started :=
    .single trivial (.start sample_start)
  have member : sampleUpload ∈ started.uploads := .head _
  obtain ⟨_, _, _, _, rooms, _⟩ :=
    breaks_down_only_for_want_of_room (show sample.service.config.validate = .ok () from rfl) rfl
      reaches
  exact ⟨rfl, rfl, started, reaches, member, rfl,
    fun random => ((rooms _ member).2.2 sampleEncoder rfl random).2⟩

/-- A configuration without a fault whose queue no machine can have. -/
theorem large_queue_breaks_down :
    let config : TransferConfig := { handoffDepth := 2 ^ 61 }
    let service : Service := { sample.service with config }
    config.validate = .ok () ∧ (Upload.start service ⟨⟨0⟩⟩ "a").1 = .error .panicked := by
  intro config service
  have valid : service.config.validate = .ok () := rfl
  have named : checkFileName "a" = .ok "a" := by rfl
  have known : ∃ key, service.keyOf ⟨⟨0⟩⟩ = .ok key := ⟨_, sample_keyOf⟩
  refine ⟨valid, (Upload.startsWithin valid _ _).panicked_iff.2 ⟨⟨⟨_, named⟩, known⟩, ?_⟩⟩
  decide

end Scene

end Strongroom
