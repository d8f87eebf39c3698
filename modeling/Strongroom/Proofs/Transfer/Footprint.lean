import Strongroom.Proofs.Transfer.Standing

/-! # What a move leaves behind

A move of an upload handles its own blob and no other, and the journal names the
upload. The catalog changes in two ways only: the record of the upload is staged
by its commit, and taken out again where the flush has failed.
-/

namespace Strongroom

variable {δ : Type}

/-- An event of a journal that belongs to an upload. -/
def Event.IsOf (event : Event) (upload : Upload) : Prop :=
  (event.name = upload.blobName ∧ event.verb ≠ .insert ∧ event.verb ≠ .delete) ∨
    event = ⟨.insert, toString upload.fileId⟩

/-- The removal of a blob is noted, and then the store is asked for it, whatever it
    replies. A store that is set to refuse does nothing. -/
structure Service.Removes (disk : Disk δ) (service : Service) (d : δ) (name : String)
    (result : Except Error Unit) (service' : Service) (d' : δ) : Prop where
  noted : service' = { service.note .remove name with blobs := service'.blobs }
  asked : service.conduct.remove = none →
    Script.Runs disk d (service.blobs.remove name) (result, service'.blobs) d'
  refused : ∀ e, service.conduct.remove = some e →
    result = .error e ∧ service'.blobs = service.blobs ∧ d' = d

theorem Service.removes_iff {disk : Disk δ} {service service' : Service} {name : String}
    {result : Except Error Unit} {d d' : δ} :
    service.Removes disk d name result service' d' ↔
      Script.Runs disk d (service.removeBlob name) (result, service') d' := by
  unfold removeBlob
  simp only [note]
  constructor
  · rintro ⟨noted, asked, refused⟩
    split
    · rename_i e refuses
      obtain ⟨rfl, same, rfl⟩ := refused e refuses
      rw [noted, same]
      exact .done
    · rename_i ready
      rw [noted]
      exact Script.runs_bind.2 ⟨_, _, asked ready, .done⟩
  · intro runs
    split at runs
    · rename_i e refuses
      obtain ⟨⟨⟩, rfl⟩ := Script.runs_pure.1 runs
      refine ⟨rfl, fun ready => ?_, fun e' refuses' => ?_⟩
      · cases ready.symm.trans refuses
      · cases refuses'.symm.trans refuses
        exact ⟨rfl, rfl, rfl⟩
    · rename_i ready
      obtain ⟨⟨result', blobs⟩, d₁, removed, rest⟩ := Script.runs_bind.1 runs
      obtain ⟨⟨⟩, rfl⟩ := Script.runs_pure.1 rest
      refine ⟨rfl, fun _ => removed, fun e refuses => ?_⟩
      cases ready.symm.trans refuses

/-- To remove a blob is to note it, and then to ask the store unless it refuses. -/
theorem Service.runs_removeBlob {disk : Disk δ} {service service' : Service} {name : String}
    {result : Except Error Unit} {d d' : δ}
    (runs : Script.Runs disk d (service.removeBlob name) (result, service') d') :
    ∃ blobs, service' = { service.note .remove name with blobs } ∧
      ((∃ e, result = .error e ∧ blobs = service.blobs ∧ d' = d) ∨
        Script.Runs disk d (service.blobs.remove name) (result, blobs) d') := by
  have removes := removes_iff.2 runs
  refine ⟨service'.blobs, removes.noted, ?_⟩
  cases here : service.conduct.remove with
  | none => exact .inr (removes.asked here)
  | some e => exact .inl ⟨e, removes.refused e here⟩

namespace Upload

/-- What the writer writes is a draft of the upload's own blob. -/
def OwnsDraft (upload : Upload) : Prop :=
  ∀ draft, upload.writer.draft? = some draft → draft.IsOf upload.blobName

/-- What an upload is about does not change. -/
structure SameFile (upload next : Upload) : Prop where
  fileId : next.fileId = upload.fileId
  owner : next.owner = upload.owner
  fileName : next.fileName = upload.fileName
  blobName : next.blobName = upload.blobName
  capacity : next.capacity = upload.capacity

theorem Stops.same {upload next : Upload} {act : Act} {reason : Error}
    (stops : upload.Stops act next reason) :
    next =
      { upload with
        phase := next.phase, encoder := next.encoder, inbound := next.inbound
        cancelled := next.cancelled } := by
  cases stops with
  | fired enters | interrupted enters | unsealed enters =>
      cases enters <;> rfl
  | _ => rfl

end Upload

/-- What a move changes outside of its upload. -/
structure Footprint (disk : Disk δ) (s s' : Spot δ) : Prop where
  file : s.upload.SameFile s'.upload
  master : s'.service.master = s.service.master
  config : s'.service.config = s.service.config
  ids : s'.service.ids = s.service.ids
  journal : ∃ events, s'.service.journal = events ++ s.service.journal ∧
    ∀ event ∈ events, event.IsOf s.upload
  objects : s.service.blobs.Reworks disk s.upload.blobName s.disk s'.service.blobs s'.disk ∨
    (s'.service.blobs = s.service.blobs ∧
      ∃ record step next reply,
        s.upload.call = .flushing record (.step step next) ∧
          disk.replies s.disk step reply s'.disk)
  catalog : s'.service.catalog = s.service.catalog ∨
    (∃ record rest filed,
      s.upload.Files s.service record ∧ s'.upload.call = .flushing filed rest ∧
        s.service.catalog.stageFile record = .ok s'.service.catalog) ∨
    ∃ record e, s.upload.call = .flushing record (.done (.error e)) ∧
      s'.service.catalog = s.service.catalog.unstageFile record.id

namespace Footprint

variable {disk : Disk δ} {s s' : Spot δ} {act : Act}

theorem of_random {upload : Upload} {random : Entropy} (file : s.upload.SameFile upload) :
    Footprint disk s { s with service := { s.service with random }, upload } where
  file := file
  master := rfl
  config := rfl
  ids := rfl
  journal := ⟨[], rfl, by simp⟩
  objects := .inl .nothing
  catalog := .inl rfl

theorem of_same {upload : Upload} (file : s.upload.SameFile upload) :
    Footprint disk s { s with upload } :=
  of_random file

theorem of_removal {upload : Upload} {result : Except Error Unit} {service : Service} {d : δ}
    (file : s.upload.SameFile upload)
    (runs : Script.Runs disk s.disk (s.service.removeBlob s.upload.blobName) (result, service) d) :
    Footprint disk s ⟨service, upload, d⟩ := by
  obtain ⟨blobs, rfl, outcome⟩ := Service.runs_removeBlob runs
  refine ⟨file, rfl, rfl, rfl, ⟨[⟨.remove, s.upload.blobName⟩], rfl, ?_⟩, .inl ?_, .inl rfl⟩
  · intro event member
    rw [List.mem_singleton] at member
    subst member
    exact .inl ⟨rfl, by simp, by simp⟩
  · rcases outcome with ⟨_, _, rfl, rfl⟩ | removed
    · exact .nothing
    · exact (BlobStore.Handles.remove removed).reworks

/-- A step that ends the writer's task is noted under the name of the blob. -/
theorem of_ending {upload : Upload} {service : Service} {verb : Verb} {d : δ}
    (file : s.upload.SameFile upload) (put : verb ≠ .insert ∧ verb ≠ .delete)
    (master : service.master = s.service.master) (config : service.config = s.service.config)
    (ids : service.ids = s.service.ids) (journal : service.journal = s.service.journal)
    (catalog : service.catalog = s.service.catalog)
    (reworks : s.service.blobs.Reworks disk s.upload.blobName s.disk service.blobs d) :
    Footprint disk s ⟨service.note verb s.upload.blobName, upload, d⟩ := by
  refine ⟨file, master, config, ids, ⟨[⟨verb, s.upload.blobName⟩], ?_, ?_⟩, .inl reworks,
    .inl catalog⟩
  · exact congrArg (_ :: ·) journal
  · intro event member
    rw [List.mem_singleton] at member
    subst member
    exact .inl ⟨rfl, put⟩

theorem of_callerMoves (moves : CallerMoves disk s act s') : Footprint disk s s' := by
  cases moves with
  | stop stops =>
      rw [stops.same]
      exact of_random ⟨rfl, rfl, rfl, rfl, rfl⟩
  | deny enters =>
      rw [enters.same]
      exact of_same ⟨rfl, rfl, rfl, rfl, rfl⟩
  | opened enters | sealed enters =>
      rw [enters.same]
      exact of_random ⟨rfl, rfl, rfl, rfl, rfl⟩
  | fed | wrote | handed | handedFinal | hungUp | filed | gaveUp | cancelled =>
      exact of_same ⟨rfl, rfl, rfl, rfl, rfl⟩
  | dropped =>
      refine of_same ?_
      unfold Upload.drop
      split
      all_goals exact ⟨rfl, rfl, rfl, rfl, rfl⟩
  | refused =>
      refine ⟨⟨rfl, rfl, rfl, rfl, rfl⟩, rfl, rfl, rfl, ⟨[_], rfl, ?_⟩, .inl .nothing, .inl rfl⟩
      simp [Event.IsOf]
  | staged call stored _ staged =>
      refine ⟨⟨rfl, rfl, rfl, rfl, rfl⟩, rfl, rfl, rfl, ⟨[_], rfl, ?_⟩, .inl .nothing,
        .inr (.inl ⟨_, _, _, ⟨_, _, call, stored, rfl⟩, rfl, staged⟩)⟩
      simp [Event.IsOf]
  | flushed call replied =>
      exact ⟨⟨rfl, rfl, rfl, rfl, rfl⟩, rfl, rfl, rfl, ⟨[], rfl, by simp⟩,
        .inr ⟨rfl, _, _, _, _, call, replied⟩, .inl rfl⟩
  | unstaged call =>
      exact ⟨⟨rfl, rfl, rfl, rfl, rfl⟩, rfl, rfl, rfl, ⟨[], rfl, by simp⟩, .inl .nothing,
        .inr (.inr ⟨_, _, call, rfl⟩)⟩
  | removed _ runs => exact of_removal ⟨rfl, rfl, rfl, rfl, rfl⟩ runs

theorem of_writerMoves (owns : s.upload.OwnsDraft) (moves : WriterMoves disk s s') :
    Footprint disk s s' := by
  have file {queue : List Bytes} {writer : Writer} :
      s.upload.SameFile { s.upload with queue, writer } := ⟨rfl, rfl, rfl, rfl, rfl⟩
  cases moves with
  | halted | arrived | drains | drained =>
      exact ⟨file, rfl, rfl, rfl, ⟨[], rfl, by simp⟩, .inl .nothing, .inl rfl⟩
  | began opens _ begun =>
      cases opens with
      | store | cut | pass =>
          exact ⟨file, rfl, rfl, rfl, ⟨[], rfl, by simp⟩,
            .inl (BlobStore.Handles.begin begun).reworks, .inl rfl⟩
  | notBegun opens _ begun =>
      cases opens with
      | store | cut | pass =>
          exact of_ending file (by simp) rfl rfl rfl rfl rfl
            (BlobStore.Handles.begin begun).reworks
  | stored continues _ _ taken =>
      exact ⟨file, rfl, rfl, rfl, ⟨[], rfl, by simp⟩,
        .inl (BlobStore.Handles.take (owns _ continues.draft?.1) taken).reworks, .inl rfl⟩
  | notStored continues _ _ noted taken removed =>
      have own := owns _ continues.draft?.1
      rw [own.1] at removed
      refine of_ending file ?_ rfl rfl rfl rfl rfl
        (.more (.take own taken) (BlobStore.Handles.remove removed).reworks)
      rcases noted with rfl | rfl
      all_goals simp
  | closed storing _ _ _ finished =>
      have own := owns _ (by rw [storing]; rfl)
      exact of_ending file (by simp) rfl rfl rfl rfl rfl
        (BlobStore.Handles.close own finished).reworks
  | broke cutting _ removed =>
      have own := owns _ (by rw [cutting]; rfl)
      rw [own.1] at removed
      exact of_ending file (by simp) rfl rfl rfl rfl rfl (BlobStore.Handles.remove removed).reworks
  | @endedDraining left taken ending service upload _ _ _ ended =>
      cases ending
      all_goals
        cases ended
        exact of_ending file (by simp) rfl rfl rfl rfl rfl .nothing

theorem of_moves (owns : s.upload.OwnsDraft) (moves : Moves disk s act s') :
    Footprint disk s s' := by
  cases moves with
  | caller moves => exact of_callerMoves moves
  | writer moves => exact of_writerMoves owns moves
  | cleared _ _ runs => exact of_removal ⟨rfl, rfl, rfl, rfl, rfl⟩ runs

end Footprint

section

variable {disk : Disk δ} {s s' : Spot δ} {act : Act}

theorem CallerMoves.writer (moves : CallerMoves disk s act s') :
    s'.upload.writer = s.upload.writer := by
  cases moves with
  | stop stops =>
      have same := congrArg Upload.writer stops.same
      exact same
  | deny enters | opened enters | sealed enters =>
      have same := congrArg Upload.writer enters.same
      exact same
  | dropped => exact Upload.drop_writer
  | _ => rfl

/-- The writer only ever writes a draft of the upload's own blob. -/
theorem Upload.OwnsDraft.moves (owns : s.upload.OwnsDraft) (moves : Moves disk s act s') :
    s'.upload.OwnsDraft := by
  have idle {upload : Upload} (nothing : upload.writer.draft? = none) : upload.OwnsDraft := by
    intro draft writes
    rw [nothing] at writes
    cases writes
  have writes {upload : Upload} {draft : BlobDraft} (drawn : upload.writer.draft? = some draft)
      (own : draft.IsOf upload.blobName) : upload.OwnsDraft := by
    intro draft' writes
    rw [drawn] at writes
    cases writes
    exact own
  cases moves with
  | caller moves =>
      intro draft writes
      rw [moves.writer] at writes
      rw [(Footprint.of_callerMoves moves).file.blobName]
      exact owns draft writes
  | cleared => exact owns
  | writer moves =>
      cases moves with
      | halted | arrived | notBegun | notStored | closed | broke | drains | drained =>
          exact idle rfl
      | began opens _ begun => exact writes (opens.draft? _) (BlobStore.isOf_begin begun)
      | stored continues _ _ taken =>
          exact writes (continues.draft?.2 _)
            (BlobStore.isOf_take (owns _ continues.draft?.1) taken)
      | @endedDraining left taken ending service upload _ _ _ ended =>
          cases ending
          all_goals
            cases ended
            exact idle rfl

end

end Strongroom
