import Strongroom.Proofs.Transfer.Books

/-! # What goes on beside an upload

Seen from one upload, what the others do and what the service does beside them
adds to the journal and leaves the blob alone. Only a blob that is done may be
removed from outside, and only once its record is deleted.
-/

namespace Strongroom

variable {δ : Type}

namespace Footprint

variable {disk : Disk δ} {s s' : Spot δ}

theorem samePath (footprint : Footprint disk s s') :
    s'.service.catalog.path? = s.service.catalog.path? := by
  rcases footprint.catalog with same | ⟨_, _, _, _, _, staged⟩ | ⟨_, _, _, gone⟩
  · rw [same]
  · exact (Catalog.stageFile_ok staged).1
  · rw [gone, Catalog.path?_unstageFile]

theorem sameRoot (footprint : Footprint disk s s') :
    s'.service.blobs.root? = s.service.blobs.root? := by
  rcases footprint.objects with reworks | ⟨same, _⟩
  · exact reworks.root?
  · rw [same]

end Footprint

/-- A file stays in the catalog unless its owner deletes it, or an upload takes it
    out because the flush has failed. -/
theorem Scene.Steps.keeps_file {disk : Disk δ} {scene scene' : Scene δ} {deed : Deed}
    {file : FileRecord}
    (steps : scene.Steps disk deed scene') (drafts : ∀ upload ∈ scene.uploads, upload.OwnsDraft)
    (single : ∀ other ∈ scene.service.catalog.entries.files, other.id = file.id → other = file)
    (there : file ∈ scene.service.catalog.entries.files) :
    file ∈ scene'.service.catalog.entries.files ∨
      (deed = .delete file.id file.owner ∧ scene.Unlocked) ∨
        ∃ upload ∈ scene.uploads, (∃ act, deed = .act upload.fileId act) ∧ ∃ record e,
          upload.call = .flushing record (.done (.error e)) ∧ record.id = file.id := by
  cases steps with
  | start started =>
      obtain ⟨_, _, service, _⟩ := Transfers.start_cases started
      simp only [service]
      exact .inl there
  | @act before upload act _ service d member _ _ offers runs =>
      have moves : Moves disk ⟨scene.service, before, scene.disk⟩ act ⟨service, upload, d⟩ :=
        moves_of_offers offers runs
      change file ∈ service.catalog.entries.files ∨ _
      rcases (Footprint.of_moves (drafts before member) moves).catalog with
        same | ⟨_, _, _, _, _, staged⟩ | ⟨record, e, call, gone⟩
      · simp only at same
        exact .inl (same ▸ there)
      · simp only at staged
        rw [(Catalog.stageFile_ok staged).2.1]
        exact .inl (List.mem_append_left _ there)
      · simp only at call gone
        by_cases own : record.id = file.id
        · exact .inr (.inr ⟨before, member, ⟨_, rfl⟩, record, e, call, own⟩)
        · rw [gone, Catalog.entries_unstageFile, Entries.mem_dropFile]
          exact .inl ⟨there, Ne.symm own⟩
  | enroll _ runs =>
      obtain ⟨_, _, rfl, _, _, files, _⟩ := Service.runs_enroll runs
      exact .inl (files ▸ there)
  | delete unlocked runs =>
      obtain ⟨_, _, rfl, _, _, _, _, outcome⟩ := Service.runs_deleteRecord runs
      rcases outcome with ⟨record, rfl, ⟨member, id, owner⟩, files, _⟩ | ⟨e, rfl, _, kept⟩
      · by_cases own : record.id = file.id
        · rw [← single record member own, id, owner]
          exact .inr (.inl ⟨rfl, unlocked⟩)
        · exact .inl (files ▸ Entries.mem_dropFile.2 ⟨there, Ne.symm own⟩)
      · exact .inl (kept file there single)
  | clear _ runs =>
      obtain ⟨_, rfl, _⟩ := Service.runs_removeBlob runs
      exact .inl there
  | download runs =>
      rcases Download.runs_start runs with ⟨rfl, _⟩ | ⟨_, rfl, _⟩
      all_goals exact .inl there
  | load | conduct | tick => exact .inl there

/-- A step that touches no object. -/
def Shelf.Spares {disk : Disk δ} {root path : Option Path} (shelf : Shelf disk root path)
    (s : Step) : Prop :=
  ∀ {store : BlobStore} {other : String} {d d' : δ} {reply : s.Reply},
    store.root? = root → IsBlobName other → disk.replies d s reply d' →
      shelf.object store d' other = shelf.object store d other

/-- A scene whose store and catalog are those of a shelf. -/
structure Shelved {disk : Disk δ} {root path : Option Path} (shelf : Shelf disk root path)
    (scene : Scene δ) : Prop where
  root : scene.service.blobs.root? = root
  path : scene.service.catalog.path? = path
  flushing : ∀ upload ∈ scene.uploads, ∀ record rest,
    upload.call = .flushing record rest → rest.Asks shelf.Spares

def Shelf.shows {disk : Disk δ} {root path : Option Path} (shelf : Shelf disk root path)
    (scene : Scene δ) (name : String) : Option Bytes :=
  shelf.object scene.service.blobs scene.disk name

section

variable {disk : Disk δ} {root path : Option Path} {shelf : Shelf disk root path} {limit : Nat}
  {scene scene' : Scene δ} {deed : Deed} {name : String}

theorem Shelf.flushes {store : BlobStore} {d d' : δ} (rooted : store.root? = root)
    (named : IsBlobName name) (flushes : Catalog.Flushes disk path d d') :
    shelf.object store d' name = shelf.object store d name := by
  rcases flushes with rfl | ⟨catalog, result, same, runs⟩
  · rfl
  · have step (d₁ : δ) (s : Step) (reply : s.Reply) (d₂ : δ) (spares : shelf.Spares s)
        (replied : disk.replies d₁ s reply d₂)
        (before : shelf.object store d₁ name = shelf.object store d name) :
        shelf.object store d₂ name = shelf.object store d name :=
      (spares rooted named replied).trans before
    exact runs.keeps (shelf.flushing same) step rfl

theorem Moves.flushing {s s' : Spot δ} {act : Act} (moves : Moves disk s act s')
    (catalog : s.service.catalog.path? = path)
    (before : ∀ record rest, s.upload.call = .flushing record rest → rest.Asks shelf.Spares) :
    ∀ record rest, s'.upload.call = .flushing record rest → rest.Asks shelf.Spares := by
  intro record rest call
  cases moves with
  | writer moves =>
      have same := congrArg Upload.call moves.same.2
      exact before record rest (same.symm.trans call)
  | cleared => exact before record rest call
  | caller moves =>
      cases moves with
      | flushed here =>
          cases call
          exact (before _ _ here).2 _
      | staged _ _ _ staged =>
          cases call
          exact shelf.flushing ((Catalog.stageFile_ok staged).1.trans catalog)
      | cancelled => exact before record rest call
      | wrote =>
          dsimp only at call
          split at call
          all_goals cases call
      | dropped =>
          rw [Upload.drop_call] at call
          cases call
      | _ => cases call

namespace Shelved

theorem turns (shelved : Shelved shelf scene) (drafts : ∀ upload ∈ scene.uploads, upload.OwnsDraft)
    (turns : scene.Turns disk deed scene') : Shelved shelf scene' := by
  cases turns with
  | @start _ _ _ transfers started =>
      obtain ⟨ids, _, service, outcome⟩ := Transfers.start_cases started
      refine ⟨?_, ?_, fun upload member record rest call => ?_⟩
      · rw [service]
        exact shelved.root
      · rw [service]
        exact shelved.path
      · rcases outcome with ⟨uploads, _⟩ | ⟨fresh, uploads, _, begins⟩
        · exact shelved.flushing upload (uploads ▸ member) record rest call
        · have member : upload ∈ transfers.uploads := member
          rw [uploads, List.mem_append, List.mem_singleton] at member
          rcases member with old | rfl
          · exact shelved.flushing upload old record rest call
          · rw [begins.stands.2.2] at call
            cases call
  | @act before upload act service d member _ _ moves =>
      have footprint := Footprint.of_moves (drafts before member) moves
      refine ⟨footprint.sameRoot.trans shelved.root, footprint.samePath.trans shelved.path, ?_⟩
      intro other present
      rcases Transfers.mem_store.1 present with ⟨old, _⟩ | ⟨rfl, _⟩
      · exact shelved.flushing other old
      · exact moves.flushing shelved.path (shelved.flushing before member)
  | errand _ errand =>
      refine ⟨?_, errand.path.trans shelved.path, ?_⟩
      · rcases errand.objects with ⟨same, _⟩ | ⟨_, _, reworks⟩
        · rw [same]
          exact shelved.root
        · exact reworks.root?.trans shelved.root
      · rw [errand.uploads]
        exact shelved.flushing

theorem reaches {opening final : Scene δ} (shelved : Shelved shelf opening)
    (books : Books limit opening)
    (reaches : Scene.Reaches disk (Scene.Behaves limit) opening final) : Shelved shelf final := by
  induction reaches with
  | refl => exact shelved
  | step before _ stepped ih => exact ih.turns (books.reaches before).drafts stepped.turns

end Shelved

/-- A move of an upload leaves the objects of other names alone. -/
theorem Shelf.footprint {s s' : Spot δ} (footprint : Footprint disk s s')
    (rooted : s.service.blobs.root? = root)
    (flushing : ∀ record rest, s.upload.call = .flushing record rest → rest.Asks shelf.Spares)
    (own : IsBlobName s.upload.blobName) (named : IsBlobName name)
    (other : s.upload.blobName ≠ name) :
    shelf.object s'.service.blobs s'.disk name = shelf.object s.service.blobs s.disk name := by
  rcases footprint.objects with reworks | ⟨same, record, step, next, reply, call, replied⟩
  · exact shelf.aside rooted own named other reworks
  · rw [same]
    exact (flushing _ _ call).1 rooted named replied

/-- An object that is not doomed, and not that of the upload that acts, stays as
    it is. -/
theorem Scene.Turns.shows (turns : scene.Turns disk deed scene') (shelved : Shelved shelf scene)
    (books : Books limit scene) (named : IsBlobName name) (spared : name ∉ scene.doomed)
    (other : ∀ id act, deed = .act id act →
      ∀ upload ∈ scene.uploads, upload.fileId = id → upload.blobName ≠ name) :
    shelf.shows scene' name = shelf.shows scene name := by
  cases turns with
  | start started =>
      obtain ⟨ids, _, service, _⟩ := Transfers.start_cases started
      rw [Shelf.shows, service]
      rfl
  | @act before upload act service d member _ _ moves =>
      exact shelf.footprint (Footprint.of_moves (books.drafts before member) moves) shelved.root
        (shelved.flushing before member) (books.isBlobName member) named
        (other _ _ rfl before member rfl)
  | errand _ errand =>
      rcases errand.objects with ⟨same, flushes | looks⟩ | ⟨other, doomed, reworks⟩
      · rw [Shelf.shows, same]
        exact shelf.flushes shelved.root named (shelved.path ▸ flushes)
      · rw [Shelf.shows, same]
        exact shelf.looking shelved.root named looks
      · exact shelf.aside shelved.root (books.doomed other doomed).1 named
          (fun same => spared (same ▸ doomed)) reworks

/-- What an upload sees of a step in which it does not act. -/
structure Aside (shelf : Shelf disk root path) (scene scene' : Scene δ) (upload : Upload) :
    Prop where
  member : upload ∈ scene'.uploads
  dropped : upload.fileId ∈ scene'.dropped → upload.fileId ∈ scene.dropped
  chunk : scene'.chunk upload.fileId = scene.chunk upload.fileId
  payload : scene'.payload upload.fileId = scene.payload upload.fileId
  journal : ∃ events, scene'.service.journal = events ++ scene.service.journal ∧
    ∀ event ∈ events, event ≠ ⟨.insert, toString upload.fileId⟩ ∧
      (event = ⟨.remove, upload.blobName⟩ →
        upload.phase = .done ∧ ⟨.delete, toString upload.fileId⟩ ∈ scene.service.journal)
  object : upload.phase ≠ .done →
    shelf.shows scene' upload.blobName = shelf.shows scene upload.blobName

theorem Scene.Turns.aside {upload : Upload} (turns : scene.Turns disk deed scene')
    (shelved : Shelved shelf scene) (books : Books limit scene) (member : upload ∈ scene.uploads)
    (other : ∀ act, deed ≠ .act upload.fileId act) : Aside shelf scene scene' upload := by
  have object (undone : upload.phase ≠ .done) :
      shelf.shows scene' upload.blobName = shelf.shows scene upload.blobName := by
    refine turns.shows shelved books (books.isBlobName member)
      (fun doomed => undone ((books.doomed _ doomed).2.2 upload member rfl).1) ?_
    rintro id act rfl before present rfl same
    exact other act (by rw [books.apart before present upload member (.inr same)])
  cases turns with
  | start started =>
      obtain ⟨ids, _, service, outcome⟩ := Transfers.start_cases started
      refine ⟨?_, id, rfl, rfl, ⟨[], by rw [service]; rfl, by simp⟩, object⟩
      rcases outcome with ⟨uploads, _⟩ | ⟨fresh, uploads, _⟩
      · exact uploads ▸ member
      · rw [uploads]
        exact List.mem_append_left _ member
  | @act before after act service d present _ _ moves =>
      have different : upload.fileId ≠ before.fileId := fun same => other act (by rw [same])
      have footprint := Footprint.of_moves (books.drafts before present) moves
      obtain ⟨events, journal, own⟩ := footprint.journal
      refine ⟨Transfers.mem_store.2 (.inl ⟨member, ?_⟩), ?_, if_neg different, if_neg different,
        ⟨events, journal, ?_⟩, object⟩
      · exact footprint.file.fileId ▸ different
      · intro gone
        dsimp only [Scene.after] at gone
        split at gone
        · exact (List.mem_cons.1 gone).resolve_left different
        · exact gone
      -- What the other upload notes has its own names, which no two uploads share.
      · intro event noted
        constructor
        · rintro rfl
          rcases own _ noted with ⟨_, verb, _⟩ | same
          · exact verb rfl
          · have texts := congrArg Event.name same
            exact different (FileId.toString_injective texts)
        · rintro rfl
          rcases own _ noted with ⟨same, _⟩ | same
          · exact absurd (congrArg Upload.fileId
              (books.apart upload member before present (.inr same))) different
          · cases congrArg Event.verb same
  | errand _ errand =>
      obtain ⟨events, journal, quiet⟩ := errand.journal
      refine ⟨errand.uploads ▸ member, fun gone => errand.dropped ▸ gone,
        congrFun errand.chunk _, congrFun errand.payload _,
        ⟨events, journal, fun event noted => ⟨?_, ?_⟩⟩, object⟩
      · rintro rfl
        exact (quiet _ noted).1 rfl
      · rintro rfl
        exact (books.doomed _ ((quiet _ noted).2 rfl)).2.2 upload member rfl

/-- What an upload makes of a step in which it acts. -/
structure Moved (disk : Disk δ) (scene scene' : Scene δ) (before : Upload) (act : Act)
    (upload : Upload) : Prop where
  member : before ∈ scene.uploads
  present : upload ∈ scene'.uploads
  handle : act.takesHandle = true → before.fileId ∉ scene.dropped
  dropped : before.fileId ∈ scene'.dropped →
    before.fileId ∈ scene.dropped ∨ ∃ inside, act = .drop inside
  chunk : scene'.chunk before.fileId = before.chunkAfter act (scene.chunk before.fileId)
  payload : scene'.payload before.fileId =
    before.payloadAfter act (scene.chunk before.fileId) (scene.payload before.fileId)
  moves : Moves disk ⟨scene.service, before, scene.disk⟩ act ⟨scene'.service, upload, scene'.disk⟩

theorem Moved.file {before upload : Upload} {act : Act}
    (moved : Moved disk scene scene' before act upload) (books : Books limit scene) :
    before.SameFile upload :=
  (Footprint.of_moves (books.drafts before moved.member) moved.moves).file

/-- How an upload of a scene came out of a step: it is new, it did not act, or it
    did. -/
inductive Comes (shelf : Shelf disk root path) (limit : Nat) (scene : Scene δ) (deed : Deed)
    (scene' : Scene δ) (upload : Upload) : Prop where
  | fresh {owner : UserId} :
    Transfers.Begins scene.service owner upload → scene.service.ids.used + 2 ≤ limit →
      scene'.service.journal = scene.service.journal → scene'.payload = scene.payload →
        upload.fileId ∉ scene'.dropped → Comes shelf limit scene deed scene' upload
  | aside :
    upload ∈ scene.uploads → Aside shelf scene scene' upload →
      Comes shelf limit scene deed scene' upload
  | moved {before : Upload} {act : Act} :
    deed = .act before.fileId act → Moved disk scene scene' before act upload →
      Comes shelf limit scene deed scene' upload

theorem Moved.of_act {before upload : Upload} {act : Act} {service : Service} {d : δ}
    (books : Books limit scene) (present : before ∈ scene.uploads)
    (handle : act.takesHandle = true → before.fileId ∉ scene.dropped)
    (moves : Moves disk ⟨scene.service, before, scene.disk⟩ act ⟨service, upload, d⟩) :
    Moved disk scene (scene.after before act service upload d) before act upload where
  member := present
  present := Transfers.mem_store.2 (.inr ⟨rfl, before, present,
    (Footprint.of_moves (books.drafts before present) moves).file.fileId.symm⟩)
  handle := handle
  dropped gone := by
    dsimp only [Scene.after] at gone
    split at gone
    · exact .inr ⟨_, rfl⟩
    · exact .inl gone
  chunk := if_pos rfl
  payload := if_pos rfl
  moves := moves

theorem Scene.Turns.comes {upload : Upload} (turns : scene.Turns disk deed scene')
    (behaves : scene.Behaves limit deed) (shelved : Shelved shelf scene)
    (books : Books limit scene) (member : upload ∈ scene'.uploads) :
    Comes shelf limit scene deed scene' upload := by
  have aside (old : upload ∈ scene.uploads) (other : ∀ act, deed ≠ .act upload.fileId act) :
      Comes shelf limit scene deed scene' upload := .aside old (turns.aside shelved books old other)
  cases turns with
  | @start _ _ _ transfers started =>
      obtain ⟨ids, _, service, outcome⟩ := Transfers.start_cases started
      rw [Scene.Behaves, started, service] at behaves
      rcases outcome with ⟨uploads, _⟩ | ⟨fresh, uploads, more, begins⟩
      · exact aside (uploads ▸ member) (by simp)
      · have member : upload ∈ transfers.uploads := member
        rw [uploads, List.mem_append, List.mem_singleton] at member
        rcases member with old | rfl
        · exact aside old (by simp)
        · have early : ids.used ≤ limit := behaves
          refine .fresh begins (by omega) (by rw [service]) rfl fun gone => ?_
          obtain ⟨n, small, here⟩ := books.dropped _ gone
          rw [begins.fileId] at here
          exact books.differs small (Nat.le_refl _) (by omega) (FileId.mk.inj here).symm
  | @act before after act service d present handle _ moves =>
      have moved := Moved.of_act books present handle moves
      rcases Transfers.mem_store.1 member with ⟨old, different⟩ | ⟨rfl, _⟩
      · refine aside old fun act same => different ?_
        exact (Deed.act.inj same).1.symm.trans (moved.file books).fileId.symm
      · exact .moved rfl moved
  | errand idle errand =>
      refine aside (errand.uploads ▸ member) fun act same => ?_
      rw [same] at idle
      cases idle

/-- Where an upload of a scene goes in a step: it does not act, or it moves. -/
theorem Scene.Turns.goes {upload : Upload} (turns : scene.Turns disk deed scene')
    (shelved : Shelved shelf scene) (books : Books limit scene) (member : upload ∈ scene.uploads) :
    Aside shelf scene scene' upload ∨
      ∃ act next, deed = .act upload.fileId act ∧ Moved disk scene scene' upload act next := by
  by_cases other : ∀ act, deed ≠ .act upload.fileId act
  · exact .inl (turns.aside shelved books member other)
  obtain ⟨act, same⟩ := Classical.not_forall.1 other
  have same : deed = .act upload.fileId act := Classical.not_not.1 same
  refine .inr ⟨act, ?_⟩
  cases turns with
  | start => cases same
  | errand idle =>
      rw [same] at idle
      cases idle
  | @act before next act' service d present handle _ moves =>
      obtain ⟨id, rfl⟩ := Deed.act.inj same
      obtain rfl := books.apart before present upload member (.inl id)
      exact ⟨next, rfl, .of_act books present handle moves⟩

theorem Scene.Turns.moved {upload : Upload} {act : Act}
    (turns : scene.Turns disk (.act upload.fileId act) scene') (books : Books limit scene)
    (present : upload ∈ scene'.uploads) : ∃ before, Moved disk scene scene' before act upload := by
  generalize same : Deed.act upload.fileId act = deed at turns
  cases turns with
  | start => cases same
  | errand idle =>
      rw [← same] at idle
      cases idle
  | @act before next act' service d member handle _ moves =>
      obtain ⟨id, rfl⟩ := Deed.act.inj same
      rcases books.mem_after member moves present with ⟨_, different⟩ | rfl
      · exact absurd id different
      · exact ⟨before, .of_act books member handle moves⟩

/-- What every step that is allowed keeps for an upload, whether it acts or not, a
    run keeps. -/
theorem Books.follows_allowed {allows : Scene δ → Deed → Prop}
    (behaves : ∀ scene deed, allows scene deed → scene.Behaves limit deed)
    (holds : Scene δ → Upload → Prop) {upload : Upload}
    (aside : ∀ scene scene' upload, Books limit scene → upload ∈ scene.uploads →
      Aside shelf scene scene' upload → holds scene upload → holds scene' upload)
    (moved : ∀ scene scene' upload act next, Books limit scene → Shelved shelf scene →
      allows scene (.act upload.fileId act) → Moved disk scene scene' upload act next →
        holds scene upload → holds scene' next)
    (books : Books limit scene) (shelved : Shelved shelf scene)
    (reaches : scene.Reaches disk allows scene') (member : upload ∈ scene.uploads)
    (here : holds scene upload) :
    ∃ next ∈ scene'.uploads, next.fileId = upload.fileId ∧ next.blobName = upload.blobName ∧
      holds scene' next := by
  induction reaches with
  | refl => exact ⟨upload, member, rfl, rfl, here⟩
  | @step middle last deed reached allowed steps ih =>
      obtain ⟨next, present, fileId, blobName, here⟩ := ih
      have reached := reached.mono behaves
      have books := books.reaches reached
      have shelved := shelved.reaches ‹_› reached
      rcases steps.turns.goes shelved books present with same | ⟨act, later, rfl, moves⟩
      · exact ⟨next, same.member, fileId, blobName, aside _ _ _ books present same here⟩
      · have file := moves.file books
        exact ⟨later, moves.present, file.fileId.trans fileId, file.blobName.trans blobName,
          moved _ _ _ _ _ books shelved allowed moves here⟩

theorem Books.follows (holds : Scene δ → Upload → Prop) {upload : Upload}
    (aside : ∀ scene scene' upload, Books limit scene → upload ∈ scene.uploads →
      Aside shelf scene scene' upload → holds scene upload → holds scene' upload)
    (moved : ∀ scene scene' upload act next, Books limit scene → Shelved shelf scene →
      upload.Behaves act → Moved disk scene scene' upload act next →
        holds scene upload → holds scene' next)
    (books : Books limit scene) (shelved : Shelved shelf scene)
    (reaches : scene.Reaches disk (Scene.Behaves limit) scene') (member : upload ∈ scene.uploads)
    (here : holds scene upload) :
    ∃ next ∈ scene'.uploads, next.fileId = upload.fileId ∧ next.blobName = upload.blobName ∧
      holds scene' next :=
  books.follows_allowed (fun _ _ behaves => behaves) holds aside
    (fun _ _ upload _ _ books shelved behaves moves =>
      moved _ _ _ _ _ books shelved (behaves upload moves.member rfl) moves)
    shelved reaches member here

end

end Strongroom
