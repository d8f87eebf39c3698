import Strongroom.Proofs.Transfer.Filing

/-! # The books of the service

What ties uploads, catalog and journal together. Identifiers are drawn once, so
two uploads share neither a file nor a blob. A record in the catalog that names
the file or the blob of an upload is the record of that upload, whose commit is
being flushed or done. A blob is doomed only once its record is deleted.
-/

namespace Strongroom

variable {δ : Type}

namespace Transfers

variable {transfers transfers' : Transfers}

theorem mem_store {service : Service} {upload other : Upload} :
    other ∈ (transfers.store service upload).uploads ↔
      (other ∈ transfers.uploads ∧ other.fileId ≠ upload.fileId) ∨
        (other = upload ∧ ∃ before ∈ transfers.uploads, before.fileId = upload.fileId) := by
  simp only [store, modify, List.mem_map]
  constructor
  · rintro ⟨before, member, rfl⟩
    split
    · rename_i same
      exact .inr ⟨rfl, before, member, same⟩
    · rename_i different
      exact .inl ⟨member, different⟩
  · rintro (⟨member, different⟩ | ⟨rfl, before, member, same⟩)
    · exact ⟨other, member, if_neg different⟩
    · exact ⟨before, member, if_pos same⟩

theorem upload?_eq {upload : Upload} (member : upload ∈ transfers.uploads)
    (single : ∀ other ∈ transfers.uploads, other.fileId = upload.fileId → other = upload) :
    transfers.upload? upload.fileId = some upload := by
  unfold upload?
  cases found : transfers.uploads.find? fun other => other.fileId = upload.fileId with
  | none =>
      have nobody := List.find?_eq_none.1 found upload member
      simp at nobody
  | some other =>
      have same := List.find?_some found
      simp only [decide_eq_true_eq] at same
      rw [single other (List.mem_of_find?_eq_some found) same]

/-- What a new upload is made of. -/
structure Begins (service : Service) (owner : UserId) (upload : Upload) : Prop where
  belongs : upload.owner = owner
  fileId : upload.fileId = ⟨service.ids.tape service.ids.used⟩
  blobName : upload.blobName = (service.ids.tape (service.ids.used + 1)).toText
  encoder : ∃ key encoder, service.keyOf owner = .ok key ∧
    Stream.Encoder.create key service.config.blockSize = .ok encoder ∧
      upload.encoder = some encoder
  stands : upload.Streams ∧ upload.phase = .receiving ∧ upload.call = .idle
  writer : upload.writer = .fresh ∧ upload.queue = []
  capacity : upload.capacity = service.config.handoffDepth
  inbound : upload.inbound = none

/-- Starting an upload draws identifiers, and may give a new upload. -/
theorem start_cases {owner : UserId} {fileName : String} {result : Except Halt FileId}
    (started : transfers.start owner fileName = (result, transfers')) :
    ∃ ids, ids.tape = transfers.service.ids.tape ∧
      transfers'.service = { transfers.service with ids } ∧
        ((transfers'.uploads = transfers.uploads ∧ transfers.service.ids.used ≤ ids.used) ∨
          ∃ upload, transfers'.uploads = transfers.uploads ++ [upload] ∧
            ids.used = transfers.service.ids.used + 2 ∧
              Begins transfers.service owner upload) := by
  unfold start Upload.start at started
  split at started
  · rename_i halt service began
    cases started
    split at began
    · cases began
      exact ⟨_, rfl, rfl, .inl ⟨rfl, Nat.le_refl _⟩⟩
    · split at began
      · cases began
        exact ⟨_, rfl, rfl, .inl ⟨rfl, Nat.le_refl _⟩⟩
      · split at began
        · cases began
          exact ⟨_, rfl, rfl, .inl ⟨rfl, Nat.le_refl _⟩⟩
        · simp only [IdSupply.draw] at began
          split at began
          · cases began
            exact ⟨⟨_, transfers.service.ids.used + 1 + 1⟩, rfl, rfl,
              .inl ⟨rfl, by simp only; omega⟩⟩
          · cases began
  · rename_i upload service began
    cases started
    split at began
    · cases began
    · rename_i trimmed _
      split at began
      · cases began
      · rename_i key known
        split at began
        · cases began
        · rename_i encoder created
          simp only [IdSupply.draw] at began
          split at began
          · cases began
          · cases began
            exact ⟨⟨_, transfers.service.ids.used + 1 + 1⟩, rfl, rfl, .inr ⟨_, rfl, rfl,
              rfl, rfl, rfl, ⟨key, encoder, known, created, rfl⟩,
              ⟨⟨rfl, rfl, rfl, rfl⟩, rfl, rfl⟩, ⟨rfl, rfl⟩, rfl, rfl⟩⟩

end Transfers

/-- The books are in order, as long as only the first `limit` identifiers are
    drawn. -/
structure Books (limit : Nat) (scene : Scene δ) : Prop where
  within : scene.service.ids.used ≤ limit
  /-- These differ. -/
  injective : ∀ m n, m < limit → n < limit →
    scene.service.ids.tape m = scene.service.ids.tape n → m = n
  drawn : ∀ upload ∈ scene.uploads, ∃ m n,
    m < scene.service.ids.used ∧ n < scene.service.ids.used ∧
      upload.fileId = ⟨scene.service.ids.tape m⟩ ∧
        upload.blobName = (scene.service.ids.tape n).toText
  apart : ∀ upload ∈ scene.uploads, ∀ other ∈ scene.uploads,
    upload.fileId = other.fileId ∨ upload.blobName = other.blobName → upload = other
  stands : ∀ upload ∈ scene.uploads, upload.Stands (upload.fileId ∈ scene.dropped)
  drafts : ∀ upload ∈ scene.uploads, upload.OwnsDraft
  named : ∀ file ∈ scene.service.catalog.entries.files, IsBlobName file.blobName
  single : ∀ file ∈ scene.service.catalog.entries.files,
    ∀ other ∈ scene.service.catalog.entries.files,
      file.id = other.id ∨ file.blobName = other.blobName → file = other
  kept : ∀ file ∈ scene.service.catalog.entries.files, ∀ upload ∈ scene.uploads,
    file.id = upload.fileId ∨ file.blobName = upload.blobName →
      file.id = upload.fileId ∧ file.blobName = upload.blobName ∧ upload.InCatalog
  doomed : ∀ name ∈ scene.doomed, IsBlobName name ∧
    (∀ file ∈ scene.service.catalog.entries.files, file.blobName ≠ name) ∧
      ∀ upload ∈ scene.uploads, upload.blobName = name →
        upload.phase = .done ∧ ⟨.delete, toString upload.fileId⟩ ∈ scene.service.journal
  /-- What is still to be drawn is not in use. -/
  undrawn : ∀ n, scene.service.ids.used ≤ n → n < limit →
    (∀ file ∈ scene.service.catalog.entries.files,
      file.id ≠ ⟨scene.service.ids.tape n⟩ ∧
        file.blobName ≠ (scene.service.ids.tape n).toText) ∧
      (scene.service.ids.tape n).toText ∉ scene.doomed ∧
        ⟨.insert, (scene.service.ids.tape n).toText⟩ ∉ scene.service.journal ∧
          ⟨.remove, (scene.service.ids.tape n).toText⟩ ∉ scene.service.journal
  /-- Only handles of uploads are dropped. -/
  dropped : ∀ id ∈ scene.dropped, ∃ n,
    n < scene.service.ids.used ∧ id = ⟨scene.service.ids.tape n⟩

namespace Books

variable {disk : Disk δ} {limit : Nat} {scene scene' : Scene δ}

theorem isBlobName (books : Books limit scene) {upload : Upload}
    (member : upload ∈ scene.uploads) : IsBlobName upload.blobName := by
  obtain ⟨_, n, _, _, _, name⟩ := books.drawn upload member
  exact ⟨_, name⟩

theorem differs (books : Books limit scene) {m n : Nat} (early : m < scene.service.ids.used)
    (later : scene.service.ids.used ≤ n) (small : n < limit) :
    scene.service.ids.tape m ≠ scene.service.ids.tape n := by
  intro same
  have := books.injective m n (by omega) small same
  omega

theorem unused (books : Books limit scene) {upload : Upload} (member : upload ∈ scene.uploads)
    {n : Nat} (later : scene.service.ids.used ≤ n) (small : n < limit) :
    upload.fileId ≠ ⟨scene.service.ids.tape n⟩ ∧
      upload.blobName ≠ (scene.service.ids.tape n).toText := by
  obtain ⟨_, _, early, early', id, name⟩ := books.drawn upload member
  rw [id, name]
  constructor
  · intro same
    exact books.differs early later small (FileId.mk.inj same)
  · intro same
    exact books.differs early' later small (Uuid.toText_injective same)

section

variable (books : Books limit scene) (beside : Errand disk scene scene')

include books beside

theorem doomed_errand : ∀ name ∈ scene'.doomed, IsBlobName name ∧
    (∀ file ∈ scene'.service.catalog.entries.files, file.blobName ≠ name) ∧
      ∀ upload ∈ scene'.uploads, upload.blobName = name →
        upload.phase = .done ∧ ⟨.delete, toString upload.fileId⟩ ∈ scene'.service.journal := by
  intro name member
  rw [beside.uploads]
  rcases beside.doomed name member with member | ⟨file, there, rfl, unlocked, noted, gone⟩
  · obtain ⟨events, journal, _⟩ := beside.journal
    obtain ⟨named, absent, uploads⟩ := books.doomed name member
    refine ⟨named, fun file member => absent file (beside.files file member), ?_⟩
    intro upload member same
    obtain ⟨done, noted⟩ := uploads upload member same
    refine ⟨done, ?_⟩
    rw [journal]
    exact List.mem_append_right _ noted
  · refine ⟨books.named file there, ?_, ?_⟩
    · intro other member same
      have same := books.single other (beside.files other member) file there (.inr same)
      exact gone other member (congrArg FileRecord.id same)
    · intro upload member same
      obtain ⟨id, _, filed⟩ := books.kept file there upload member (.inr same.symm)
      rw [id] at noted
      refine ⟨?_, noted⟩
      rcases filed with done | ⟨record, rest, call⟩
      · exact done
      · exact absurd call (unlocked upload member record rest)

theorem undrawn_errand : ∀ n, scene'.service.ids.used ≤ n → n < limit →
    (∀ file ∈ scene'.service.catalog.entries.files,
      file.id ≠ ⟨scene'.service.ids.tape n⟩ ∧
        file.blobName ≠ (scene'.service.ids.tape n).toText) ∧
      (scene'.service.ids.tape n).toText ∉ scene'.doomed ∧
        ⟨.insert, (scene'.service.ids.tape n).toText⟩ ∉ scene'.service.journal ∧
          ⟨.remove, (scene'.service.ids.tape n).toText⟩ ∉ scene'.service.journal := by
  obtain ⟨events, journal, quiet⟩ := beside.journal
  intro n later small
  rw [beside.ids] at later ⊢
  obtain ⟨files, doomed, inserts, removes⟩ := books.undrawn n later small
  refine ⟨fun file member => files file (beside.files file member), ?_, ?_, ?_⟩
  · intro member
    rcases beside.doomed _ member with member | ⟨file, there, same, _⟩
    · exact doomed member
    · exact (files file there).2 same
  · rw [journal, List.mem_append, not_or]
    exact ⟨fun member => (quiet _ member).1 rfl, inserts⟩
  · rw [journal, List.mem_append, not_or]
    exact ⟨fun member => doomed ((quiet _ member).2 rfl), removes⟩

theorem errand : Books limit scene' where
  within := beside.ids ▸ books.within
  injective := by
    rw [beside.ids]
    exact books.injective
  drawn := by
    rw [beside.ids, beside.uploads]
    exact books.drawn
  apart := by
    rw [beside.uploads]
    exact books.apart
  stands := by
    rw [beside.uploads, beside.dropped]
    exact books.stands
  drafts := by
    rw [beside.uploads]
    exact books.drafts
  named file member := books.named file (beside.files file member)
  single file member other member' :=
    books.single file (beside.files file member) other (beside.files other member')
  kept := by
    rw [beside.uploads]
    exact fun file member => books.kept file (beside.files file member)
  doomed := books.doomed_errand beside
  undrawn := books.undrawn_errand beside
  dropped := by
    rw [beside.ids, beside.dropped]
    exact books.dropped

end

section

variable {owner : UserId} {fresh : Upload}

theorem unlike (books : Books limit scene) (more : scene.service.ids.used + 2 ≤ limit)
    (begins : Transfers.Begins scene.service owner fresh) {other : Upload}
    (member : other ∈ scene.uploads) :
    ¬ (fresh.fileId = other.fileId ∨ fresh.blobName = other.blobName) := by
  rw [begins.fileId, begins.blobName]
  rintro (same | same)
  · exact (books.unused member (Nat.le_refl _) (by omega)).1 same.symm
  · exact (books.unused member (Nat.le_succ _) (by omega)).2 same.symm

theorem unfiled (books : Books limit scene) (more : scene.service.ids.used + 2 ≤ limit)
    (begins : Transfers.Begins scene.service owner fresh) {file : FileRecord}
    (there : file ∈ scene.service.catalog.entries.files) :
    ¬ (file.id = fresh.fileId ∨ file.blobName = fresh.blobName) := by
  rw [begins.fileId, begins.blobName]
  rintro (same | same)
  · exact ((books.undrawn _ (Nat.le_refl _) (by omega)).1 file there).1 same
  · exact ((books.undrawn _ (Nat.le_succ _) (by omega)).1 file there).2 same

end

/-- Identifiers may be drawn to no purpose. -/
theorem draws (books : Books limit scene) {ids : IdSupply}
    (tape : ids.tape = scene.service.ids.tape) (more : scene.service.ids.used ≤ ids.used)
    (within : ids.used ≤ limit) :
    Books limit { scene with service := { scene.service with ids } } := by
  constructor
  all_goals simp only [tape]
  case within => exact within
  case injective => exact books.injective
  case drawn =>
    intro upload member
    obtain ⟨m, n, hm, hn, names⟩ := books.drawn upload member
    exact ⟨m, n, by omega, by omega, names⟩
  case apart => exact books.apart
  case stands => exact books.stands
  case drafts => exact books.drafts
  case named => exact books.named
  case single => exact books.single
  case kept => exact books.kept
  case doomed => exact books.doomed
  case undrawn =>
    intro n later small
    exact books.undrawn n (by omega) small
  case dropped =>
    intro id gone
    obtain ⟨n, early, here⟩ := books.dropped id gone
    exact ⟨n, by omega, here⟩

/-- A new upload draws its identifiers and joins the others. -/
theorem begins (books : Books limit scene) {owner : UserId} {ids : IdSupply} {fresh : Upload}
    (tape : ids.tape = scene.service.ids.tape) (used : ids.used = scene.service.ids.used + 2)
    (within : ids.used ≤ limit) (begins : Transfers.Begins scene.service owner fresh) :
    Books limit
      { scene with
        service := { scene.service with ids }, uploads := scene.uploads ++ [fresh] } := by
  have more : scene.service.ids.used + 2 ≤ limit := by omega
  have drawn := books.draws tape (by omega) within
  constructor
  all_goals simp only [List.mem_append, List.mem_singleton]
  case within => exact drawn.within
  case injective => exact drawn.injective
  case drawn =>
    rintro upload (old | rfl)
    · exact drawn.drawn upload old
    · rw [tape]
      exact ⟨_, _, by omega, by omega, begins.fileId, begins.blobName⟩
  case apart =>
    rintro upload (old | rfl) other (old' | rfl) same
    · exact books.apart upload old other old' same
    · exact absurd (same.imp Eq.symm Eq.symm) (books.unlike more begins old)
    · exact absurd same (books.unlike more begins old')
    · rfl
  case stands =>
    rintro upload (old | rfl)
    · exact books.stands upload old
    · exact .receiving begins.stands.1 begins.stands.2.1 (.inl begins.stands.2.2)
  case drafts =>
    rintro upload (old | rfl)
    · exact books.drafts upload old
    · intro draft writes
      rw [begins.writer.1] at writes
      cases writes
  case named => exact books.named
  case single => exact books.single
  case kept =>
    rintro file there upload (old | rfl) same
    · exact books.kept file there upload old same
    · exact absurd same (books.unfiled more begins there)
  case doomed =>
    intro name member
    obtain ⟨named, absent, uploads⟩ := books.doomed name member
    refine ⟨named, absent, ?_⟩
    rintro upload (old | rfl) same
    · exact uploads upload old same
    · rw [begins.blobName] at same
      exact absurd (same ▸ member) (books.undrawn _ (Nat.le_succ _) (by omega)).2.1
  case undrawn => exact drawn.undrawn
  case dropped => exact drawn.dropped

theorem start (books : Books limit scene) {owner : UserId} {fileName : String}
    {result : Except Halt FileId} {transfers : Transfers}
    (started : scene.toTransfers.start owner fileName = (result, transfers))
    (within : transfers.service.ids.used ≤ limit) :
    Books limit { scene with toTransfers := transfers } := by
  obtain ⟨ids, tape, service, outcome⟩ := Transfers.start_cases started
  obtain ⟨_, uploads⟩ := transfers
  subst service
  rcases outcome with ⟨rfl, more⟩ | ⟨fresh, rfl, used, begins⟩
  · exact books.draws tape more within
  · exact books.begins tape used within begins

section

variable {before upload : Upload} {act : Act} {service : Service} {d : δ}
  (books : Books limit scene) (member : before ∈ scene.uploads)
  (handle : act.takesHandle = true → before.fileId ∉ scene.dropped)
  (behaves : before.Behaves act)
  (moves : Moves disk ⟨scene.service, before, scene.disk⟩ act ⟨service, upload, d⟩)

include books member

theorem other_blobName {other : Upload} (old : other ∈ scene.uploads)
    (different : other.fileId ≠ before.fileId) : other.blobName ≠ before.blobName :=
  fun same => different (congrArg Upload.fileId (books.apart other old before member (.inr same)))

include moves

theorem footprint : Footprint disk ⟨scene.service, before, scene.disk⟩ ⟨service, upload, d⟩ :=
  .of_moves (books.drafts before member) moves

theorem ids_act : service.ids = scene.service.ids :=
  (books.footprint member moves).ids

theorem mem_after {other : Upload}
    (present : other ∈ (scene.after before act service upload d).uploads) :
    (other ∈ scene.uploads ∧ other.fileId ≠ before.fileId) ∨ other = upload := by
  have fileId : upload.fileId = before.fileId := (books.footprint member moves).file.fileId
  rcases Transfers.mem_store.1 present with ⟨old, different⟩ | ⟨same, _⟩
  · exact .inl ⟨old, fileId ▸ different⟩
  · exact .inr same

theorem apart_act : ∀ first ∈ (scene.after before act service upload d).uploads,
    ∀ second ∈ (scene.after before act service upload d).uploads,
      first.fileId = second.fileId ∨ first.blobName = second.blobName → first = second := by
  have file : before.SameFile upload := (books.footprint member moves).file
  -- The one that acted has nothing in common with the others.
  have alone {other : Upload} (old : other ∈ scene.uploads)
      (different : other.fileId ≠ before.fileId) :
      ¬ (other.fileId = upload.fileId ∨ other.blobName = upload.blobName) := by
    rw [file.fileId, file.blobName]
    rintro (same | same)
    · exact different same
    · exact books.other_blobName member old different same
  intro first present second present' same
  rcases books.mem_after member moves present with ⟨old, different⟩ | rfl
  · rcases books.mem_after member moves present' with ⟨old', _⟩ | rfl
    · exact books.apart first old second old' same
    · exact absurd same (alone old different)
  · rcases books.mem_after member moves present' with ⟨old', different⟩ | rfl
    · exact absurd (same.imp Eq.symm Eq.symm) (alone old' different)
    · rfl

theorem dropped_act : ∀ id ∈ (scene.after before act service upload d).dropped, ∃ n,
    n < scene.service.ids.used ∧ id = ⟨scene.service.ids.tape n⟩ := by
  obtain ⟨m, _, early, _, id, _⟩ := books.drawn before member
  intro other gone
  dsimp only [Scene.after] at gone
  split at gone
  · rcases List.mem_cons.1 gone with rfl | gone
    · exact ⟨m, early, id⟩
    · exact books.dropped other gone
  · exact books.dropped other gone

include handle behaves

theorem stands_act : ∀ other ∈ (scene.after before act service upload d).uploads,
    other.Stands (other.fileId ∈ (scene.after before act service upload d).dropped) := by
  have fileId : upload.fileId = before.fileId := (books.footprint member moves).file.fileId
  have more {id : FileId} (gone : id ∈ scene.dropped) :
      id ∈ (scene.after before act service upload d).dropped := by
    dsimp only [Scene.after]
    split
    · exact List.mem_cons_of_mem _ gone
    · exact gone
  intro other present
  rcases books.mem_after member moves present with ⟨old, _⟩ | rfl
  · exact (books.stands other old).mono more
  · rw [fileId]
    refine (books.stands before member).moves handle behaves moves more ?_
    rintro inside rfl
    exact List.mem_cons_self

/-- What an act does to the files of the catalog: a file that is there was there
    before, or is the new record of the upload. -/
theorem files_act :
    ∀ file ∈ service.catalog.entries.files,
      (file ∈ scene.service.catalog.entries.files ∧
          (file.id = before.fileId ∨ file.blobName = before.blobName → upload.InCatalog)) ∨
        (before.Files scene.service file ∧ upload.InCatalog ∧ before.phase ≠ .done ∧
          ∀ other ∈ service.catalog.entries.files,
            other.id = file.id ∨ other.blobName = file.blobName → other = file) := by
  have stands := books.stands before member
  have midway := stands.midway
  -- A file that was there before and is still there.
  have kept {file : FileRecord} (there : file ∈ scene.service.catalog.entries.files)
      (still : file ∈ service.catalog.entries.files)
      (same : file.id = before.fileId ∨ file.blobName = before.blobName) : upload.InCatalog := by
    obtain ⟨id, _, filed⟩ := books.kept file there before member same
    rcases stands.inCatalog_moves handle behaves moves filed with filed | ⟨record, e, call, gone⟩
    · exact filed
    · rw [call] at midway
      simp only at gone
      rw [gone, Catalog.entries_unstageFile, Entries.mem_dropFile] at still
      exact absurd (id.trans midway.2.2.2.symm) still.2
  intro file still
  rcases (books.footprint member moves).catalog with
    same | ⟨record, rest, filed, files, call, staged⟩ | ⟨record, e, call, gone⟩
  · have there : file ∈ scene.service.catalog.entries.files := by
      simp only at same
      rw [← same]
      exact still
    exact .inl ⟨there, kept there still⟩
  · obtain ⟨_, entries, new⟩ := Catalog.stageFile_ok staged
    have entries : service.catalog.entries.files =
        scene.service.catalog.entries.files ++ [record] := congrArg Entries.files entries
    rw [entries, List.mem_append, List.mem_singleton] at still
    rcases still with there | rfl
    · exact .inl ⟨there, kept there (by rw [entries]; exact List.mem_append_left _ there)⟩
    · have ⟨_, _, joins, _⟩ := files
      simp only at joins
      rw [joins] at midway
      refine .inr ⟨files, .inr ⟨_, _, call⟩, by simp [midway.1], fun other there same => ?_⟩
      rw [entries, List.mem_append, List.mem_singleton] at there
      rcases there with there | same
      · rcases same with same | same
        · exact absurd same (new other there)
        · obtain ⟨_, _, filed⟩ :=
            books.kept other there before member (.inr (same.trans files.blobName))
          rcases filed with done | ⟨_, _, flushing⟩
          · rw [midway.1] at done
            cases done
          · rw [joins] at flushing
            cases flushing
      · exact same
  · have there : file ∈ scene.service.catalog.entries.files := by
      simp only at gone
      rw [gone, Catalog.entries_unstageFile, Entries.mem_dropFile] at still
      exact still.1
    exact .inl ⟨there, kept there still⟩

theorem single_act : ∀ file ∈ service.catalog.entries.files,
    ∀ other ∈ service.catalog.entries.files,
      file.id = other.id ∨ file.blobName = other.blobName → file = other := by
  have files := books.files_act member handle behaves moves
  intro file there other there' same
  rcases files file there with ⟨old, _⟩ | ⟨_, _, _, new⟩
  · rcases files other there' with ⟨old', _⟩ | ⟨_, _, _, new⟩
    · exact books.single file old other old' same
    · exact new file there same
  · exact (new other there' (same.imp Eq.symm Eq.symm)).symm

theorem kept_act : ∀ file ∈ service.catalog.entries.files,
    ∀ other ∈ (scene.after before act service upload d).uploads,
      file.id = other.fileId ∨ file.blobName = other.blobName →
        file.id = other.fileId ∧ file.blobName = other.blobName ∧ other.InCatalog := by
  have own : before.SameFile upload := (books.footprint member moves).file
  intro file there other present same
  have files := books.files_act member handle behaves moves file there
  rcases books.mem_after member moves present with ⟨old, different⟩ | rfl
  · rcases files with ⟨there, _⟩ | ⟨new, _⟩
    · exact books.kept file there other old same
    · rw [new.id, new.blobName] at same
      rcases same with same | same
      · exact absurd same.symm different
      · exact absurd same.symm (books.other_blobName member old different)
  · rw [own.fileId, own.blobName] at same ⊢
    rcases files with ⟨there, filed⟩ | ⟨new, filed, _⟩
    · obtain ⟨id, name, _⟩ := books.kept file there before member same
      exact ⟨id, name, filed same⟩
    · exact ⟨new.id, new.blobName, filed⟩

theorem doomed_act : ∀ name ∈ scene.doomed, IsBlobName name ∧
    (∀ file ∈ service.catalog.entries.files, file.blobName ≠ name) ∧
      ∀ other ∈ (scene.after before act service upload d).uploads, other.blobName = name →
        other.phase = .done ∧ ⟨.delete, toString other.fileId⟩ ∈ service.journal := by
  have footprint := books.footprint member moves
  have own : before.SameFile upload := footprint.file
  obtain ⟨events, journal, _⟩ := footprint.journal
  have noted {event : Event} (there : event ∈ scene.service.journal) :
      event ∈ service.journal := by
    simp only at journal
    rw [journal]
    exact List.mem_append_right _ there
  intro name condemned
  obtain ⟨named, absent, uploads⟩ := books.doomed name condemned
  refine ⟨named, ?_, ?_⟩
  · intro file there
    rcases books.files_act member handle behaves moves file there with
      ⟨there, _⟩ | ⟨new, _, undone, _⟩
    · exact absent file there
    · rw [new.blobName]
      exact fun same => undone (uploads before member same).1
  · intro other present same
    rcases books.mem_after member moves present with ⟨old, _⟩ | rfl
    · obtain ⟨done, deleted⟩ := uploads other old same
      exact ⟨done, noted deleted⟩
    · rw [own.blobName] at same
      obtain ⟨done, deleted⟩ := uploads before member same
      rw [own.fileId]
      exact ⟨(books.stands before member).done_moves handle moves done, noted deleted⟩

theorem undrawn_act : ∀ n, scene.service.ids.used ≤ n → n < limit →
    (∀ file ∈ service.catalog.entries.files,
      file.id ≠ ⟨scene.service.ids.tape n⟩ ∧
        file.blobName ≠ (scene.service.ids.tape n).toText) ∧
      (scene.service.ids.tape n).toText ∉ scene.doomed ∧
        ⟨.insert, (scene.service.ids.tape n).toText⟩ ∉ service.journal ∧
          ⟨.remove, (scene.service.ids.tape n).toText⟩ ∉ service.journal := by
  obtain ⟨events, journal, own⟩ := (books.footprint member moves).journal
  simp only at journal
  intro n later small
  obtain ⟨unused, condemned, inserts, removes⟩ := books.undrawn n later small
  obtain ⟨file, blob⟩ := books.unused member later small
  have text : toString before.fileId ≠ (scene.service.ids.tape n).toText := fun same =>
    file (congrArg FileId.mk (Uuid.toText_injective same))
  refine ⟨?_, condemned, ?_, ?_⟩
  · intro record there
    rcases books.files_act member handle behaves moves record there with ⟨there, _⟩ | ⟨new, _⟩
    · exact unused record there
    · rw [new.id, new.blobName]
      exact ⟨file, blob⟩
  · rw [journal, List.mem_append, not_or]
    refine ⟨fun member => ?_, inserts⟩
    rcases own _ member with ⟨_, verb, _⟩ | same
    · exact verb rfl
    · exact text (congrArg Event.name same).symm
  · rw [journal, List.mem_append, not_or]
    refine ⟨fun member => ?_, removes⟩
    rcases own _ member with ⟨same, _⟩ | same
    · exact blob same.symm
    · cases congrArg Event.verb same

theorem acts : Books limit (scene.after before act service upload d) := by
  have own : before.SameFile upload := (books.footprint member moves).file
  have ids := books.ids_act member moves
  constructor
  case within =>
    change service.ids.used ≤ limit
    rw [ids]
    exact books.within
  case injective =>
    change ∀ m n, m < limit → n < limit → service.ids.tape m = service.ids.tape n → m = n
    rw [ids]
    exact books.injective
  case drawn =>
    intro other present
    change ∃ m n, m < service.ids.used ∧ n < service.ids.used ∧
      other.fileId = ⟨service.ids.tape m⟩ ∧ other.blobName = (service.ids.tape n).toText
    rw [ids]
    rcases books.mem_after member moves present with ⟨old, _⟩ | rfl
    · exact books.drawn other old
    · rw [own.fileId, own.blobName]
      exact books.drawn before member
  case apart => exact books.apart_act member moves
  case stands => exact books.stands_act member handle behaves moves
  case drafts =>
    intro other present
    rcases books.mem_after member moves present with ⟨old, _⟩ | rfl
    · exact books.drafts other old
    · exact (books.drafts before member).moves moves
  case named =>
    intro file there
    rcases books.files_act member handle behaves moves file there with ⟨there, _⟩ | ⟨new, _⟩
    · exact books.named file there
    · rw [new.blobName]
      exact books.isBlobName member
  case single => exact books.single_act member handle behaves moves
  case kept => exact books.kept_act member handle behaves moves
  case doomed => exact books.doomed_act member handle behaves moves
  case undrawn =>
    have undrawn := books.undrawn_act member handle behaves moves
    rw [← ids] at undrawn
    exact undrawn
  case dropped =>
    have dropped := books.dropped_act member moves
    rw [← ids] at dropped
    exact dropped

end

theorem steps (books : Books limit scene) {deed : Deed} (behaves : scene.Behaves limit deed)
    (steps : scene.Steps disk deed scene') : Books limit scene' := by
  cases steps.turns with
  | start started =>
      refine books.start started ?_
      rw [Scene.Behaves, started] at behaves
      exact behaves
  | act member handle _ moves => exact books.acts member handle (behaves _ member rfl) moves
  | errand _ errand => exact books.errand errand

/-- Along a run the books stay in order. -/
theorem reaches {opening final : Scene δ} (books : Books limit opening)
    (reaches : Scene.Reaches disk (Scene.Behaves limit) opening final) : Books limit final := by
  induction reaches with
  | refl => exact books
  | step _ behaves stepped ih => exact ih.steps behaves stepped

end Books

end Strongroom
