import Strongroom.Proofs.Transfer.Possession

/-! # Handles that are dropped in the midst of a call

A commit, and a call that is fed from a stream, go with their handle when they are
dropped. The blob is removed behind it, and no record comes to the catalog any more.
But a record that is being flushed has come there before: nobody takes it out again,
and its blob goes.
-/

namespace Strongroom

variable {δ : Type}

section

variable {disk : Disk δ} {s s' : Spot δ} {act : Act}

theorem WriterMoves.catalog (moves : WriterMoves disk s s') :
    s'.service.catalog = s.service.catalog := by
  cases moves with
  | began opens | notBegun opens => cases opens <;> rfl
  | @endedDraining _ _ ending _ _ _ _ _ ended =>
      cases ending
      all_goals
        cases ended
        rfl
  | _ => rfl

theorem Moves.of_flushing {record : FileRecord} {rest : Script (Except Error Unit)}
    (moves : Moves disk s act s') (call : s'.upload.call = .flushing record rest) :
    ((∃ rest', s.upload.call = .flushing record rest') ∧
        s'.service.catalog = s.service.catalog) ∨
      record.id = s.upload.fileId ∧ ∃ filed : FileRecord, filed.id = s.upload.fileId ∧
        filed.blobName = s.upload.blobName ∧
          s.service.catalog.stageFile filed = .ok s'.service.catalog := by
  cases moves with
  | writer moves =>
      have same := congrArg Upload.call moves.same.2
      exact .inl ⟨⟨rest, same.symm.trans call⟩, moves.catalog⟩
  | cleared _ _ runs =>
      obtain ⟨_, rfl, _⟩ := Service.runs_removeBlob runs
      exact .inl ⟨⟨rest, call⟩, rfl⟩
  | caller moves =>
      cases moves with
      | flushed here =>
          cases call
          exact .inl ⟨⟨_, here⟩, rfl⟩
      | staged _ _ _ staged =>
          cases call
          exact .inr ⟨rfl, _, rfl, rfl, staged⟩
      | cancelled => exact .inl ⟨⟨rest, call⟩, rfl⟩
      | wrote =>
          dsimp only at call
          split at call
          all_goals cases call
      | dropped =>
          rw [Upload.drop_call] at call
          cases call
      | _ => cases call

end

namespace Scene

/-- How files and blobs are told apart, whatever callers do. -/
structure Labels (scene : Scene δ) : Prop where
  drawn : ∀ upload ∈ scene.uploads, ∃ n, n < scene.service.ids.used ∧
    upload.blobName = (scene.service.ids.tape n).toText
  apart : ∀ upload ∈ scene.uploads, ∀ other ∈ scene.uploads,
    upload.blobName = other.blobName → upload = other
  named : ∀ file ∈ scene.service.catalog.entries.files, IsBlobName file.blobName
  single : ∀ file ∈ scene.service.catalog.entries.files,
    ∀ other ∈ scene.service.catalog.entries.files, other.id = file.id → other = file
  doomed : ∀ name ∈ scene.doomed, IsBlobName name
  /-- What is flushed is in the catalog. -/
  staged : ∀ upload ∈ scene.uploads, ∀ record rest, upload.call = .flushing record rest →
    record.id = upload.fileId ∧ ∃ file ∈ scene.service.catalog.entries.files,
      file.id = upload.fileId ∧ file.blobName = upload.blobName

theorem Opens.labels {limit : Nat} {scene : Scene δ} (opens : scene.Opens limit) :
    scene.Labels where
  drawn := by simp [opens.uploads]
  apart := by simp [opens.uploads]
  named := opens.named
  single file there other there' same := opens.single other there' file there (.inl same)
  doomed := by simp [opens.doomed]
  staged := by simp [opens.uploads]

namespace Labels

variable {disk : Disk δ} {limit : Nat} {scene scene' : Scene δ} {deed : Deed}

theorem isBlobName (labels : scene.Labels) {upload : Upload} (member : upload ∈ scene.uploads) :
    IsBlobName upload.blobName := by
  obtain ⟨n, _, name⟩ := labels.drawn upload member
  exact ⟨_, name⟩

theorem mem_files {before upload : Upload} {act : Act} {service : Service} {d : δ}
    {file : FileRecord} (register : Register limit scene) (member : before ∈ scene.uploads)
    (moves : Moves disk ⟨scene.service, before, scene.disk⟩ act ⟨service, upload, d⟩)
    (there : file ∈ service.catalog.entries.files) :
    file ∈ scene.service.catalog.entries.files ∨
      file.blobName = before.blobName ∧
        ∀ other ∈ service.catalog.entries.files, other.id = file.id → other = file := by
  rcases (Footprint.of_moves (register.sound before member).owns moves).catalog with
    same | ⟨record, _, _, files, _, staged⟩ | ⟨_, _, _, gone⟩
  · simp only at same
    exact .inl (same ▸ there)
  · obtain ⟨_, entries, new⟩ := Catalog.stageFile_ok staged
    simp only at entries new
    rw [entries, List.mem_append, List.mem_singleton] at there
    rcases there with old | rfl
    · exact .inl old
    · refine .inr ⟨files.blobName, fun other there same => ?_⟩
      rw [entries, List.mem_append, List.mem_singleton] at there
      exact there.resolve_left fun old => new other old same
  · simp only at gone
    rw [gone, Catalog.entries_unstageFile, Entries.mem_dropFile] at there
    exact .inl there.1

theorem start {transfers : Transfers} {owner : UserId} {fileName : String}
    {result : Except Halt FileId} (labels : scene.Labels) (register : Register limit scene)
    (started : scene.toTransfers.start owner fileName = (result, transfers))
    (within : transfers.service.ids.used ≤ limit) :
    ({ scene with toTransfers := transfers } : Scene δ).Labels := by
  obtain ⟨ids, tape, service, outcome⟩ := Transfers.start_cases started
  obtain ⟨_, uploads⟩ := transfers
  subst service
  have within : ids.used ≤ limit := within
  have more : scene.service.ids.used ≤ ids.used := by
    rcases outcome with ⟨_, more⟩ | ⟨_, _, more, _⟩
    all_goals omega
  have drawn (upload : Upload) (old : upload ∈ scene.uploads) :
      ∃ n, n < ids.used ∧ upload.blobName = (ids.tape n).toText := by
    obtain ⟨n, early, name⟩ := labels.drawn upload old
    rw [tape]
    exact ⟨n, by omega, name⟩
  rcases outcome with ⟨same, _⟩ | ⟨upload, same, used, begins⟩
  · obtain rfl : uploads = scene.uploads := same
    exact ⟨drawn, labels.apart, labels.named, labels.single, labels.doomed, labels.staged⟩
  · obtain rfl : uploads = scene.uploads ++ [upload] := same
    have unlike (other : Upload) (old : other ∈ scene.uploads) :
        other.blobName ≠ upload.blobName := by
      obtain ⟨n, early, name⟩ := labels.drawn other old
      rw [name, begins.blobName]
      exact fun same =>
        register.differs early (Nat.le_succ _) (by omega) (Uuid.toText_injective same)
    refine ⟨fun other there => ?_, fun first there second there' same => ?_, labels.named,
      labels.single, labels.doomed, fun other there record rest call => ?_⟩
    · rcases List.mem_append.1 there with old | new
      · exact drawn other old
      · rw [List.mem_singleton.1 new, begins.blobName, ← tape]
        exact ⟨scene.service.ids.used + 1, show _ < ids.used by omega, rfl⟩
    · rcases List.mem_append.1 there with old | new
      · rcases List.mem_append.1 there' with old' | new'
        · exact labels.apart first old second old' same
        · rw [List.mem_singleton.1 new'] at same
          exact absurd same (unlike first old)
      · rcases List.mem_append.1 there' with old' | new'
        · rw [List.mem_singleton.1 new] at same
          exact absurd same.symm (unlike second old')
        · rw [List.mem_singleton.1 new, List.mem_singleton.1 new']
    · rcases List.mem_append.1 there with old | new
      · exact labels.staged other old record rest call
      · rw [List.mem_singleton.1 new, begins.stands.2.2] at call
        cases call

/-- What is flushed stays in the catalog while others act. -/
theorem keeps_staged {upload : Upload} {record : FileRecord} {rest : Script (Except Error Unit)}
    (labels : scene.Labels) (register : Register limit scene) (member : upload ∈ scene.uploads)
    (call : upload.call = .flushing record rest) (steps : scene.Steps disk deed scene')
    (other : ∀ act, deed ≠ .act upload.fileId act) :
    ∃ file ∈ scene'.service.catalog.entries.files,
      file.id = upload.fileId ∧ file.blobName = upload.blobName := by
  obtain ⟨_, file, there, id, name⟩ := labels.staged upload member record rest call
  refine ⟨file, ?_, id, name⟩
  rcases steps.keeps_file (fun other member => (register.sound other member).owns)
      (labels.single file there) there with
    kept | ⟨_, unlocked⟩ | ⟨culprit, present, ⟨act, acts⟩, record', e, call', own⟩
  · exact kept
  · exact absurd call (unlocked upload member record rest)
  · have same := (labels.staged culprit present record' _ call').1
    exact absurd acts (by rw [← same, own, id]; exact other act)

theorem act {before upload : Upload} {act : Act} {service : Service} {d : δ}
    (labels : scene.Labels) (register : Register limit scene) (member : before ∈ scene.uploads)
    (steps : scene.Steps disk (.act before.fileId act) (scene.after before act service upload d))
    (moves : Moves disk ⟨scene.service, before, scene.disk⟩ act ⟨service, upload, d⟩) :
    (scene.after before act service upload d).Labels := by
  have footprint := Footprint.of_moves (register.sound before member).owns moves
  have ids : service.ids = scene.service.ids := footprint.ids
  have name : upload.blobName = before.blobName := footprint.file.blobName
  refine ⟨fun other there => ?_, fun first there second there' same => ?_, fun file there => ?_,
    fun file there other there' same => ?_, labels.doomed, fun other there record rest call => ?_⟩
  · change ∃ n, n < service.ids.used ∧ other.blobName = (service.ids.tape n).toText
    rw [ids]
    rcases register.mem_after member moves there with ⟨old, _⟩ | rfl
    · exact labels.drawn other old
    · rw [name]
      exact labels.drawn before member
  · have alone {other : Upload} (old : other ∈ scene.uploads)
        (different : other.fileId ≠ before.fileId) : other.blobName ≠ upload.blobName := by
      rw [name]
      exact fun same => different (by rw [labels.apart other old before member same])
    rcases register.mem_after member moves there with ⟨old, different⟩ | rfl
    · rcases register.mem_after member moves there' with ⟨old', _⟩ | rfl
      · exact labels.apart first old second old' same
      · exact absurd same (alone old different)
    · rcases register.mem_after member moves there' with ⟨old', different⟩ | rfl
      · exact absurd same.symm (alone old' different)
      · rfl
  · rcases mem_files register member moves there with old | ⟨own, _⟩
    · exact labels.named file old
    · rw [own]
      exact labels.isBlobName member
  · rcases mem_files register member moves there with old | ⟨_, single⟩
    · rcases mem_files register member moves there' with old' | ⟨_, single⟩
      · exact labels.single file old other old' same
      · exact (single file there same.symm).symm
    · exact single other there' same
  · rcases register.mem_after member moves there with ⟨old, different⟩ | rfl
    · refine ⟨(labels.staged other old record rest call).1, ?_⟩
      exact labels.keeps_staged register old call steps fun _ same =>
        different (Deed.act.inj same).1.symm
    · rw [footprint.file.fileId, name]
      rcases moves.of_flushing call with ⟨⟨rest', here⟩, same⟩ | ⟨own, filed, id, blob, staged⟩
      · simp only at here same
        change _ ∧ ∃ file ∈ service.catalog.entries.files, _
        rw [same]
        exact labels.staged before member record rest' here
      · refine ⟨own, filed, ?_, id, blob⟩
        change filed ∈ service.catalog.entries.files
        simp only at staged
        rw [(Catalog.stageFile_ok staged).2.1]
        exact List.mem_append_right _ (List.mem_singleton_self _)

theorem errand (labels : scene.Labels) (register : Register limit scene)
    (steps : scene.Steps disk deed scene') (idle : deed.isErrand = true) : scene'.Labels := by
  have errand := Errand.of_steps steps idle
  refine ⟨?_, ?_, fun file there => labels.named file (errand.files file there),
    fun file there other there' => labels.single file (errand.files file there) other
      (errand.files other there'), fun name condemned => ?_,
    fun upload member record rest call => ?_⟩
  · rw [errand.uploads, errand.ids]
    exact labels.drawn
  · rw [errand.uploads]
    exact labels.apart
  · rcases errand.doomed name condemned with old | ⟨file, there, rfl, _⟩
    · exact labels.doomed name old
    · exact labels.named file there
  · rw [errand.uploads] at member
    refine ⟨(labels.staged upload member record rest call).1, ?_⟩
    refine labels.keeps_staged register member call steps fun act same => ?_
    rw [same] at idle
    cases idle

theorem steps (labels : scene.Labels) (register : Register limit scene)
    (draws : scene.Draws limit deed) (steps : scene.Steps disk deed scene') : scene'.Labels := by
  cases steps.turns with
  | start started =>
      refine labels.start register started ?_
      rw [Draws, started] at draws
      exact draws
  | act member _ _ moves => exact labels.act register member steps moves
  | errand idle _ => exact labels.errand register steps idle

end Labels

end Scene

namespace Upload

/-- No call is left, nor anything to be fed from, and the writer is told to stop. -/
structure IsLeft (upload : Upload) : Prop where
  call : upload.call = .idle
  inbound : upload.inbound = none
  stopped : upload.stopped = true

section

variable {disk : Disk δ} {s s' : Spot δ} {act : Act}

theorem IsLeft.moves (left : s.upload.IsLeft) (held : act.takesHandle = false)
    (moves : Moves disk s act s') : s'.upload.IsLeft := by
  rcases idle_of_moves left.call left.inbound held moves with ⟨_, _, _, same⟩ | ⟨_, same, _⟩
  all_goals
    rw [same]
    exact ⟨left.call, left.inbound, left.stopped⟩

/-- What is left of an upload touches its blob no more than to remove it. -/
theorem IsLeft.objects (left : s.upload.IsLeft) (moves : Moves disk s act s') :
    (s'.service.blobs = s.service.blobs ∧ s'.disk = s.disk) ∨ ∃ result,
      Script.Runs disk s.disk (s.service.removeBlob s.upload.blobName)
        (result, s'.service) s'.disk := by
  cases moves with
  | writer moves =>
      cases moves with
      | halted => exact .inl ⟨rfl, rfl⟩
      | arrived _ running | began _ running | notBegun _ running | stored _ running
      | notStored _ running | closed _ running | broke _ running | drains _ running
      | drained _ running | endedDraining _ running => cases left.stopped.symm.trans running
  | cleared _ _ runs => exact .inr ⟨_, runs⟩
  | caller moves =>
      cases moves with
      | flushed call => cases left.call.symm.trans call
      | removed clears =>
          rcases clears with call | ⟨_, call, _⟩
          all_goals cases left.call.symm.trans call
      | _ => exact .inl ⟨rfl, rfl⟩

theorem isLeft_drop {upload : Upload} (undone : upload.phase ≠ .done)
    (unfailed : upload.phase ≠ .failed) :
    (upload.drop true).IsLeft ∧ ∃ held, (upload.drop true).cleanup = .pending held := by
  obtain ⟨stopped, pending⟩ := drop_of_open undone unfailed
  exact ⟨⟨drop_call, drop_inbound, stopped⟩, _, pending⟩

end

end Upload

namespace Scene

section

variable {disk : Disk δ} {root path : Option Path} {shelf : Shelf disk root path} {limit : Nat}
  {id : FileId} {opening scene scene' later : Scene δ} {deed : Deed} {upload : Upload}

theorem Reaches.untouched (gone : id ∈ scene.dropped)
    (reaches : Reaches disk (Draws limit) scene later) :
    Reaches disk (Untouched limit id) scene later ∧ id ∈ later.dropped := by
  induction reaches with
  | refl => exact ⟨.refl, gone⟩
  | step _ draws steps ih =>
      obtain ⟨reached, gone⟩ := ih
      obtain ⟨gone, held⟩ := dropped_of_steps steps gone
      exact ⟨.step reached ⟨draws, held⟩ steps, gone⟩

theorem Register.behind {motive : Scene δ → Prop} (register : Register limit scene)
    (member : upload ∈ scene.uploads) (left : upload.IsLeft) (gone : upload.fileId ∈ scene.dropped)
    (here : motive scene)
    (step : ∀ middle final deed last, Reaches disk (Draws limit) scene middle →
      Register limit middle → last ∈ middle.uploads → last.fileId = upload.fileId →
        last.blobName = upload.blobName → last.IsLeft → middle.Draws limit deed →
          middle.Steps disk deed final → motive middle → motive final)
    (reaches : Reaches disk (Draws limit) scene later) : motive later := by
  induction reaches with
  | refl => exact here
  | step reached draws steps ih =>
      obtain ⟨last, there, own, name, left⟩ :=
        register.follows_untouched (·.IsLeft)
          (fun _ _ _ held moves left => left.moves held moves) (reached.untouched gone).1
          member left
      exact step _ _ _ last reached (register.reaches (fun _ _ draws => draws) reached) there own
        name left draws steps ih

theorem Register.labelled (register : Register limit scene) (labels : scene.Labels)
    (shelved : Shelved shelf scene) (reaches : Reaches disk (Draws limit) scene later) :
    later.Labels ∧ Shelved shelf later := by
  induction reaches with
  | refl => exact ⟨labels, shelved⟩
  | step reached draws steps ih =>
      have register := register.reaches (fun _ _ draws => draws) reached
      exact ⟨ih.1.steps register draws steps,
        ih.2.turns (fun other member => (register.sound other member).owns) steps.turns⟩

/-- Nothing comes back under the name of what is left of an upload. -/
theorem Labels.bare_steps (labels : scene.Labels) (register : Register limit scene)
    (shelved : Shelved shelf scene) (member : upload ∈ scene.uploads) (left : upload.IsLeft)
    (steps : scene.Steps disk deed scene') (bare : shelf.shows scene upload.blobName = none) :
    shelf.shows scene' upload.blobName = none := by
  have named := labels.isBlobName member
  have flushed {d : δ} (flushes : Catalog.Flushes disk scene.service.catalog.path? scene.disk d) :
      shelf.object scene.service.blobs d upload.blobName = none :=
    (shelf.flushes shelved.root named (shelved.path ▸ flushes)).trans bare
  have looked {d : δ} (looks : scene.service.blobs.Looks disk scene.disk d) :
      shelf.object scene.service.blobs d upload.blobName = none :=
    (shelf.looking shelved.root named looks).trans bare
  cases steps with
  | start started =>
      obtain ⟨ids, _, service, _⟩ := Transfers.start_cases started
      rw [Shelf.shows, service]
      exact bare
  | @act before next act _ service d present _ _ offers runs =>
      have moves : Moves disk ⟨scene.service, before, scene.disk⟩ act ⟨service, next, d⟩ :=
        moves_of_offers offers runs
      change shelf.object service.blobs d upload.blobName = none
      by_cases own : before.blobName = upload.blobName
      · obtain rfl := labels.apart before present upload member own
        rcases left.objects moves with ⟨blobs, same⟩ | ⟨_, removes⟩
        · simp only at blobs same
          rw [blobs, same]
          exact bare
        · exact shelf.removal shelved.root named removes (.inr bare)
      · have footprint := Footprint.of_moves (register.sound before present).owns moves
        exact (shelf.footprint footprint shelved.root (shelved.flushing before present)
          (labels.isBlobName present) named own).trans bare
  | enroll _ runs =>
      obtain ⟨_, _, rfl, flushes, _⟩ := Service.runs_enroll runs
      exact flushed flushes
  | delete _ runs =>
      obtain ⟨_, _, rfl, flushes, _⟩ := Service.runs_deleteRecord runs
      exact flushed flushes
  | @clear name _ _ _ doomed runs =>
      by_cases own : name = upload.blobName
      · subst own
        exact shelf.removal shelved.root named runs (.inr bare)
      · obtain ⟨blobs, rfl, ⟨_, _, rfl, rfl⟩ | removed⟩ := Service.runs_removeBlob runs
        · exact bare
        · exact (shelf.elsewhere shelved.root (labels.doomed name doomed) named own
            (.remove removed)).trans bare
  | download runs =>
      rcases Download.runs_start runs with ⟨rfl, rfl⟩ | ⟨_, rfl, looks⟩
      · exact bare
      · exact looked looks
  | load runs =>
      rcases Download.runs_load runs with rfl | looks
      · exact bare
      · exact looked looks
  | conduct | tick => exact bare

section

variable (register : Register limit scene) (member : upload ∈ scene.uploads)
  (left : upload.IsLeft) (gone : upload.fileId ∈ scene.dropped)

include register member left gone

theorem Register.spares_left (reaches : Reaches disk (Draws limit) scene later) :
    scene.service.Spares upload.fileId later.service := by
  refine register.behind (motive := fun later => scene.service.Spares upload.fileId later.service)
    member left gone (.of_same rfl rfl) ?_ reaches
  intro middle final deed last _ register there own _ left _ steps spares
  refine spares.trans (register.spares steps fun other present same size joins => ?_)
  rw [register.apart other present last there (same.trans own.symm)] at joins
  cases left.call.symm.trans joins

/-- Once nothing is there under the name of what is left of an upload, nothing comes
    back. -/
theorem Register.bare_left (labels : scene.Labels) (shelved : Shelved shelf scene)
    (bare : shelf.shows scene upload.blobName = none)
    (reaches : Reaches disk (Draws limit) scene later) :
    shelf.shows later upload.blobName = none := by
  refine register.behind (motive := fun later => shelf.shows later upload.blobName = none)
    member left gone bare ?_ reaches
  intro middle final deed last reached register' there own name left _ steps bare
  obtain ⟨labels, shelved⟩ := register.labelled labels shelved reached
  rw [← name] at bare ⊢
  exact labels.bare_steps register' shelved there left steps bare

/-- The record of what is left of an upload stays until its owner deletes it. -/
theorem Register.recorded_left {file : FileRecord} (labels : scene.Labels)
    (own : file.id = upload.fileId) (there : file ∈ scene.service.catalog.entries.files)
    (reaches : Reaches disk (Draws limit) scene later) :
    file ∈ later.service.catalog.entries.files ∨ ∃ before after,
      Reaches disk (Draws limit) scene before ∧
        before.Steps disk (.delete file.id file.owner) after ∧
          Reaches disk (Draws limit) after later := by
  refine (register.behind (motive := fun later => later.Labels ∧
      (file ∈ later.service.catalog.entries.files ∨ ∃ before after,
        Reaches disk (Draws limit) scene before ∧
          before.Steps disk (.delete file.id file.owner) after ∧
            Reaches disk (Draws limit) after later))
    member left gone ⟨labels, .inl there⟩ ?_ reaches).2
  rintro middle final deed last reached register' present same _ left draws steps ⟨labels, state⟩
  refine ⟨labels.steps register' draws steps, ?_⟩
  rcases state with there | ⟨before, after, begins, deletes, ends⟩
  · rcases steps.keeps_file (fun other member => (register'.sound other member).owns)
        (labels.single file there) there with
      kept | ⟨rfl, _⟩ | ⟨culprit, found, _, record, e, call, taken⟩
    · exact .inl kept
    · exact .inr ⟨middle, final, reached, steps, .refl⟩
    · have mine := (labels.staged culprit found record _ call).1
      rw [register'.apart culprit found last present
        (by rw [← mine, taken, own, same])] at call
      cases left.call.symm.trans call
  · exact .inr ⟨before, after, begins, deletes, .step ends draws steps⟩

end

theorem held_after {before : Upload} {act : Act} {service : Service} {d : δ}
    (held : id ∉ (scene.after before act service upload d).dropped) :
    id ∉ scene.dropped ∧ ∀ inside, act = .drop inside → before.fileId ≠ id := by
  unfold after at held
  cases act with
  | drop inside =>
      obtain ⟨other, held⟩ := not_or.1 (mt List.mem_cons.2 held)
      exact ⟨held, fun _ _ same => other same.symm⟩
  | _ => exact ⟨held, by simp⟩

theorem Completes.behaves {act : Act} (completes : scene.Completes limit id (.act id act))
    (keeps : ∀ inside, act ≠ .drop inside) : upload.Behaves act := by
  cases act with
  | giveUp => exact absurd rfl completes.2
  | drop inside => exact absurd rfl (keeps inside)
  | _ => trivial

/-- While its handle is there, an upload whose calls are not given up stands in one of
    few ways. -/
theorem Opens.stands (opens : opening.Opens limit)
    (reaches : Reaches disk (Completes limit id) opening scene) :
    ∀ upload ∈ scene.uploads, upload.fileId = id → id ∉ scene.dropped → upload.Stands False := by
  refine opens.holds_of_offers (fun gone upload => ¬ gone → upload.Stands False)
    (fun _ _ completes => completes.1) (fun _ _ _ _ begins _ => ?_)
    (fun scene before upload act _ service d _ completes _ own _ offers runs stands held => ?_)
    reaches
  · obtain ⟨streams, receiving, idle⟩ := begins.stands
    exact .receiving streams receiving (.inl idle)
  · obtain ⟨held, drops⟩ := held_after held
    have moves := moves_of_offers (s := ⟨scene.service, before, scene.disk⟩) offers runs
    exact (stands held).moves (fun _ => not_false)
      (completes.behaves fun inside same => drops inside same own) moves False.elim
      fun inside same => absurd own (drops inside same)

theorem Opens.inCatalog_of_file (opens : opening.Opens limit)
    (reaches : Reaches disk (Completes limit id) opening scene) :
    ∀ upload ∈ scene.uploads, upload.fileId = id → id ∉ scene.dropped →
      ∀ file ∈ scene.service.catalog.entries.files, file.id = id → upload.InCatalog := by
  induction reaches with
  | refl => simp [opens.uploads]
  | @step scene scene' deed reached completes steps ih =>
      intro upload there own held file filed same
      have register := opens.register.reaches (fun _ _ completes => completes.1) reached
      cases steps.turns with
      | @start owner fileName _ transfers started =>
          obtain ⟨ids, _, service, outcome⟩ := Transfers.start_cases started
          have old : file ∈ scene.service.catalog.entries.files := by
            change file ∈ transfers.service.catalog.entries.files at filed
            rw [service] at filed
            exact filed
          rcases outcome with ⟨uploads, _⟩ | ⟨fresh, uploads, used, begins⟩
          · exact ih upload (uploads ▸ there) own held file old same
          · rcases List.mem_append.1 (uploads ▸ there) with before | new
            · exact ih upload before own held file old same
            · have within := completes.1
              rw [Draws, started, service] at within
              have small : scene.service.ids.used < limit := by
                have within : ids.used ≤ limit := within
                omega
              rw [List.mem_singleton.1 new, begins.fileId] at own
              exact absurd (.inr ⟨file, old, same.trans own.symm⟩)
                (register.undrawn _ (Nat.le_refl _) small)
      | @act before next act service d member _ _ moves =>
          obtain ⟨kept, drops⟩ := held_after held
          rcases register.mem_after member moves there with ⟨old, different⟩ | rfl
          · rcases (register.sound before member).spares moves id with spares | ⟨acts, _⟩
            · exact ih upload old own kept file (spares.files file filed same) same
            · exact absurd (own.trans acts.symm) different
          · have footprint := Footprint.of_moves (register.sound before member).owns moves
            have mine : before.fileId = id := footprint.file.fileId.symm.trans own
            have stands := opens.stands reached before member mine kept
            change file ∈ service.catalog.entries.files at filed
            have stays (record : FileRecord) (e : Error)
                (call : before.call = .flushing record (.done (.error e))) :
                service.catalog ≠ scene.service.catalog.unstageFile record.id := by
              intro gone
              have midway := stands.midway
              rw [call] at midway
              rw [gone, Catalog.entries_unstageFile, Entries.mem_dropFile] at filed
              exact filed.2 (by rw [same, midway.2.2.2, mine])
            rcases footprint.catalog with catalog | ⟨_, _, _, _, call, _⟩ | ⟨record, e, call, gone⟩
            · simp only at catalog
              rw [catalog] at filed
              rw [mine] at completes
              refine (stands.inCatalog_moves (fun _ => not_false)
                (completes.behaves fun inside same => drops inside same mine) moves
                (ih before member mine kept file filed same)).resolve_right ?_
              rintro ⟨record, e, call, gone⟩
              exact stays record e call gone
            · exact .inr ⟨_, _, call⟩
            · exact absurd gone (stays record e call)
      | errand _ errand =>
          exact ih upload (errand.uploads ▸ there) own (errand.dropped ▸ held) file
            (errand.files file filed) same

/-- What comes of an upload whose handle is dropped inside the runtime, whatever call
    on it is under way. -/
structure IsDeserted (shelf : Shelf disk root path) (limit : Nat) (upload : Upload)
    (left : Scene δ) (next : Upload) : Prop where
  /-- The blob is removed behind it. -/
  cleans : CleansUp disk limit next left
  /-- Where that succeeds, no object is left, and none comes back. -/
  bare : ∀ before after later, Reaches disk (Draws limit) left before →
    before.Steps disk (.act next.fileId .cleanup) after →
      before.service.Removes disk before.disk next.blobName (.ok ()) after.service after.disk →
        Reaches disk (Draws limit) after later → shelf.shows later next.blobName = none
  /-- Unless its record was being flushed, the catalog has none, and never will. -/
  unrecorded : (∀ record rest, upload.call ≠ .flushing record rest) →
    ∀ later, Reaches disk (Draws limit) left later →
      ∀ file ∈ later.service.catalog.entries.files, file.id ≠ next.fileId
  /-- A record that was being flushed is there, and stays until its owner deletes it. -/
  recorded : ∀ record rest, upload.call = .flushing record rest →
    ∃ file ∈ left.service.catalog.entries.files,
      file.id = next.fileId ∧ file.blobName = next.blobName ∧
        ∀ later, Reaches disk (Draws limit) left later →
          file ∈ later.service.catalog.entries.files ∨ ∃ before after,
            Reaches disk (Draws limit) left before ∧
              before.Steps disk (.delete file.id file.owner) after ∧
                Reaches disk (Draws limit) after later

theorem service_of_drop {inside : Bool} (steps : scene.Steps disk (.act id (.drop inside)) scene') :
    scene'.service = scene.service ∧ id ∉ scene.dropped := by
  cases steps with
  | act _ handle _ offers runs =>
      cases offers with
      | drop =>
          obtain ⟨⟨⟩, rfl⟩ := Script.runs_pure.1 runs
          exact ⟨rfl, handle rfl⟩

theorem Suspends.catalog {during : Scene δ} (shelf : Shelf disk root path)
    (suspends : Suspends disk upload scene during) :
    during.service.catalog = scene.service.catalog ∧ during.dropped = scene.dropped ∧
      (scene.Labels → during.Labels) ∧ (Shelved shelf scene → Shelved shelf during) := by
  cases suspends with
  | waiting => exact ⟨rfl, rfl, fun labels => labels, fun shelved => shelved⟩
  | removing =>
      exact ⟨rfl, rfl,
        fun ⟨drawn, apart, named, single, doomed, staged⟩ =>
          ⟨drawn, apart, named, single, doomed, staged⟩,
        fun ⟨root, path, flushing⟩ => ⟨root, path, flushing⟩⟩

/-- An upload whose handle is dropped in the midst of a call leaves neither record nor
    blob, unless its record was being flushed: then the record stays and the blob goes. -/
theorem dropped_call_leaves_nothing_or_bare_record {during left : Scene δ}
    (shelf : Shelf disk root path) (opens : opening.Opens limit)
    (rooted : opening.service.blobs.root? = root) (pathed : opening.service.catalog.path? = path)
    (reaches : Reaches disk (Completes limit upload.fileId) opening scene)
    (member : upload ∈ scene.uploads) (undone : upload.phase ≠ .done)
    (unfailed : upload.phase ≠ .failed) (suspends : Suspends disk upload scene during)
    (steps : during.Steps disk (.act upload.fileId (.drop true)) left) :
    ∃ next ∈ left.uploads, next.fileId = upload.fileId ∧ next.blobName = upload.blobName ∧
      IsDeserted shelf limit upload left next := by
  have drawn := reaches.mono fun _ _ completes => completes.1
  have register := opens.register.reaches (fun _ _ draws => draws) drawn
  obtain ⟨labels, shelved⟩ :=
    opens.register.labelled opens.labels (opens.shelved shelf rooted pathed) drawn
  -- What holds at the drop, and right behind it.
  obtain ⟨register', uploads⟩ := suspends.register register
  obtain ⟨same, dropped, labels', shelved'⟩ := suspends.catalog shelf
  obtain ⟨service, held⟩ := service_of_drop steps
  obtain ⟨next, there, file, moves⟩ := register'.moves steps (uploads ▸ member)
  obtain rfl : next = upload.drop true := Upload.drop_of_moves moves
  obtain ⟨isLeft, away, pending⟩ := Upload.isLeft_drop undone unfailed
  have recorded := labels.staged upload member
  have labels := (labels' labels).steps register' (by trivial) steps
  have shelved := (shelved' shelved).turns
    (fun other member => (register'.sound other member).owns) steps.turns
  have catalog : left.service.catalog = scene.service.catalog := by rw [service, same]
  have gone : (upload.drop true).fileId ∈ left.dropped := file.fileId ▸ gone_of_drop steps
  have register := register'.steps (by trivial) steps
  refine ⟨_, there, file.fileId, file.blobName, ?_⟩
  constructor
  case cleans =>
    exact register.cleans_up there isLeft.call isLeft.inbound gone isLeft.stopped pending
  case bare =>
    intro before after later begins clears removes ends
    obtain ⟨labels', shelved'⟩ := register.labelled labels shelved begins
    have named := labels.isBlobName there
    have bare := shelf.removal shelved'.root named (Service.removes_iff.1 removes) (.inl rfl)
    have begins := begins.step (by trivial) clears
    obtain ⟨untouched, gone⟩ := begins.untouched gone
    obtain ⟨last, present, own, name, isLeft⟩ :=
      register.follows_untouched (·.IsLeft) (fun _ _ _ held moves left => left.moves held moves)
        untouched there isLeft
    obtain ⟨labels, shelved⟩ := register.labelled labels shelved begins
    have register := register.reaches (fun _ _ draws => draws) begins
    rw [← own] at gone
    rw [← name] at bare ⊢
    exact register.bare_left present isLeft gone labels shelved bare ends
  case unrecorded =>
    intro unflushed later ends filed present own
    have old := (register.spares_left there isLeft gone ends).files filed present own
    rw [catalog] at old
    rw [file.fileId] at own
    rw [dropped] at held
    rcases opens.inCatalog_of_file reaches upload member rfl held filed old own with
      done | ⟨record, rest, call⟩
    · exact undone done
    · exact unflushed record rest call
  case recorded =>
    intro record rest call
    obtain ⟨_, filed, present, own, name⟩ := recorded record rest call
    rw [← catalog] at present
    refine ⟨filed, present, own.trans file.fileId.symm, name.trans file.blobName.symm, ?_⟩
    intro later ends
    exact register.recorded_left there isLeft gone labels (own.trans file.fileId.symm) present ends

/-- Where objects are kept in memory, what nobody joins is cleaned up at once. -/
theorem exists_cleanup {objects : List (String × Bytes)} (member : upload ∈ scene.uploads)
    (pending : upload.cleanup = .pending false) (memory : scene.service.blobs = .memory objects)
    (ready : scene.service.conduct.remove = none) :
    ∃ after last, scene.Steps disk (.act upload.fileId .cleanup) after ∧
      scene.service.Removes disk scene.disk upload.blobName (.ok ()) after.service after.disk ∧
        after.service.catalog = scene.service.catalog ∧ last ∈ after.uploads ∧
          last.fileId = upload.fileId ∧ last.cleanup = .finished := by
  obtain ⟨service, removes, same⟩ : ∃ service,
      Script.Runs disk scene.disk (scene.service.removeBlob upload.blobName) (.ok (), service)
          scene.disk ∧ service.catalog = scene.service.catalog := by
    simp only [Service.removeBlob, Service.note, ready, memory]
    exact ⟨_, .done, rfl⟩
  obtain ⟨script, offers, runs⟩ : ∃ script, upload.cleanupStep scene.service = some script ∧
      Script.Runs disk scene.disk script (service, { upload with cleanup := .finished })
        scene.disk := by
    rw [Upload.cleanupStep, pending]
    exact ⟨_, rfl, Script.runs_bind.2 ⟨_, _, removes, .done⟩⟩
  exact ⟨scene.after upload .cleanup service { upload with cleanup := .finished } scene.disk, _,
    .act member (by simp [Act.takesHandle]) (by simp) (.cleanup offers) runs,
    Service.removes_iff.2 removes, same, Transfers.mem_store.2 (.inr ⟨rfl, upload, member, rfl⟩),
    rfl, rfl⟩

theorem HasOne.completes {before : Upload} {service : Service} {d : δ} {chunk payload : Bytes}
    {script : Script (Service × Upload)} (act : Act) (service' : Service) (next : Upload) (d' : δ)
    (one : scene.HasOne service before d chunk payload)
    (reaches : Reaches disk (Completes limit id) opening scene) (same : next.fileId = before.fileId)
    (ends : act ≠ .giveUp) (keeps : ∀ inside, act ≠ .drop inside)
    (free : act = .caller → before.InsertDue → ∀ record rest, before.call ≠ .flushing record rest)
    (offers : before.Offers service act script)
    (runs : Script.Runs disk d script (service', next) d') :
    ∃ scene', Reaches disk (Completes limit id) opening scene' ∧
      scene'.HasOne service' next d' (before.chunkAfter act chunk)
        (before.payloadAfter act chunk payload) := by
  have completes : scene.Completes limit id (.act before.fileId act) :=
    ⟨trivial, fun same => ends (Deed.act.inj same).2⟩
  have behaves : before.Behaves act := by
    cases act with
    | giveUp => exact absurd rfl ends
    | drop inside => exact absurd rfl (keeps inside)
    | _ => trivial
  obtain ⟨scene', _, steps, one⟩ :=
    show ∃ scene', scene.Conforms limit _ ∧ _ from
      one.steps act service' next d' same keeps behaves free offers runs
  exact ⟨scene', .step reaches completes steps, one⟩

end

/-- The sample, with its catalog in a file. -/
def filedSample : Scene FileTree :=
  { sample with
    service := { sample.service with catalog := .file ⟨"c.json"⟩ sample.service.catalog.entries } }

theorem filedSample_opens : filedSample.Opens 2 := by
  obtain ⟨uploads, dropped, doomed, within, injective, named, single, undrawn⟩ := sample_opens
  exact ⟨uploads, dropped, doomed, within, injective, named, single, undrawn⟩

/-- The first upload of the sample comes to flush its record, and nobody joins its
    writer any more. -/
theorem filedSample_flushes :
    ∃ (scene : Scene FileTree) (upload : Upload),
      Reaches FileTree.disk (Completes 2 upload.fileId) filedSample scene ∧
        scene.uploads = [upload] ∧ scene.dropped = [] ∧
          (∃ objects, scene.service.blobs = .memory objects) ∧
            scene.service.conduct.remove = none ∧ upload.phase = .committing ∧
              upload.held = false ∧
                ∃ record step next, upload.call = .flushing record (.step step next) := by
  let record := Stream.record true
    (Block.encryptWith sampleEncoder.key (sample.service.random.peek Aead.nonceSize) [])
  let draft : BlobDraft := ⟨sampleUpload.blobName, sampleUpload.blobName, 0, []⟩
  let full : BlobDraft := { draft with taken := 0 + record.length, held := [record] }
  -- The service and the upload as one act follows the other.
  let first : Service :=
    { filedSample.service with ids := { filedSample.service.ids with used := 2 } }
  let second : Service := { first with random := (first.random.draw Aead.nonceSize).2 }
  let sealing : Upload :=
    { sampleUpload with
      phase := .committing, encoder := none, call := .handOffFinal record 0 }
  let joining : Upload :=
    { sealing with queue := [record], sending := false, held := false, call := .joinForSize 0 }
  let begun : Upload := { joining with writer := .storing draft }
  let taken : Upload := { begun with queue := [], writer := .storing full }
  let third : Service :=
    { second with blobs := .memory [(draft.key, [record].flatten)] }.note .put draft.name
  let stored : Upload := { taken with writer := .ended (.ok full.taken) }
  let file : FileRecord := stored.recordOf third 0 full.taken
  let catalog : Catalog :=
    .file ⟨"c.json"⟩ { sample.service.catalog.entries with files := [file] }
  let fourth : Service := { third.note .insert (toString file.id) with catalog }
  let flushing : Upload := { stored with call := .flushing file catalog.flush }
  have starts : filedSample.toTransfers.start ⟨⟨0⟩⟩ "a" =
      (.ok ⟨⟨0⟩⟩, ⟨first, [sampleUpload]⟩) := by
    have name : checkFileName "a" = .ok "a" := by rfl
    have key : filedSample.service.keyOf ⟨⟨0⟩⟩ = .ok ⟨List.replicate 32 7, rfl⟩ := sample_keyOf
    simp only [Transfers.start, Upload.start, name, key]
    rfl
  have begins :
      Script.Runs FileTree.disk {} (second.blobs.begin joining.blobName) (.ok draft) {} := by
    change Script.Runs FileTree.disk {} ((BlobStore.memory []).begin (Uuid.toText ⟨1⟩)) _ _
    simp only [BlobStore.begin, BlobStore.storedName_toText, BlobStore.meansFolder_toText,
      Bool.false_eq_true, if_false]
    exact .done
  have one : HasOne { filedSample with toTransfers := ⟨first, [sampleUpload]⟩ } first
      sampleUpload {} [] [] := ⟨rfl, rfl, rfl, rfl, rfl, rfl⟩
  have run : Reaches FileTree.disk (Completes 2 sampleUpload.fileId) filedSample
      { filedSample with toTransfers := ⟨first, [sampleUpload]⟩ } := by
    have draws : filedSample.Draws 2 (.start ⟨⟨0⟩⟩ "a") :=
      Nat.le_of_eq (congrArg (fun result => result.2.service.ids.used) starts)
    exact .single ⟨draws, by simp⟩ (.start starts)
  obtain ⟨s₁, run, one⟩ := one.completes .commit second sealing {} run rfl (by simp) (by simp)
    (by simp) (.commit ⟨rfl, by simp [sampleUpload]⟩) .done
  obtain ⟨s₂, run, one⟩ := one.completes .caller second joining {} run rfl (by simp) (by simp)
    (by simp [sealing]) (.caller rfl) .done
  obtain ⟨s₃, run, one⟩ := one.completes .writer second begun {} run rfl (by simp) (by simp)
    (by simp) (.writer rfl) (Script.runs_bind.2 ⟨.ok draft, {}, begins, .done⟩)
  obtain ⟨s₄, run, one⟩ := one.completes .writer second taken {} run rfl (by simp) (by simp)
    (by simp) (.writer rfl) .done
  obtain ⟨s₅, run, one⟩ := one.completes .writer third stored {} run rfl (by simp) (by simp)
    (by simp) (.writer rfl) .done
  obtain ⟨s₆, run, one⟩ := one.completes .caller fourth flushing {} run rfl (by simp) (by simp)
    (by simp [stored, taken, begun, joining]) (.caller rfl) .done
  refine ⟨s₆, flushing, run, one.uploads, one.dropped, ⟨[(draft.key, [record].flatten)], ?_⟩, ?_,
    rfl, rfl, _, _, _, rfl⟩
  · rw [one.service]
    rfl
  · rw [one.service]
    rfl

/-- The commit of the first upload is dropped while its record is being flushed. The blob
    is removed, and the record stays. -/
theorem filedSample_keeps_bare_record :
    ∃ (scene left final : Scene FileTree) (upload : Upload),
      filedSample.Opens 2 ∧
        Reaches FileTree.disk (Completes 2 upload.fileId) filedSample scene ∧
          upload ∈ scene.uploads ∧
            (∃ record step next, upload.call = .flushing record (.step step next)) ∧
              scene.Steps FileTree.disk (.act upload.fileId (.drop true)) left ∧
                Reaches FileTree.disk (Draws 2) left final ∧
                  (∃ last ∈ final.uploads,
                    last.fileId = upload.fileId ∧ last.cleanup = .finished) ∧
                    (∃ file ∈ final.service.catalog.entries.files,
                      file.blobName = upload.blobName) ∧
                      (ConformingShelf.memory FileTree.disk (some ⟨"c.json"⟩)).shows final
                        upload.blobName = none := by
  obtain ⟨scene, upload, run, uploads, dropped, ⟨objects, memory⟩, ready, phase, free, record,
    step, rest, call⟩ := filedSample_flushes
  have member : upload ∈ scene.uploads := uploads ▸ List.mem_singleton_self upload
  have undone : upload.phase ≠ .done := by simp [phase]
  have unfailed : upload.phase ≠ .failed := by simp [phase]
  let left := scene.after upload (.drop true) scene.service (upload.drop true) scene.disk
  have drops : scene.Steps FileTree.disk (.act upload.fileId (.drop true)) left :=
    .act member (by simp [dropped]) (by simp) .drop .done
  obtain ⟨next, there, own, name, deserted⟩ := dropped_call_leaves_nothing_or_bare_record
    (ConformingShelf.memory FileTree.disk (some ⟨"c.json"⟩)).toShelf filedSample_opens rfl rfl
    run member undone unfailed .waiting drops
  have pending : next.cleanup = .pending false := by
    rcases Transfers.mem_store.1 there with ⟨old, other⟩ | ⟨rfl, _⟩
    · rw [uploads, List.mem_singleton] at old
      exact absurd (by simp [old, Upload.drop, phase]) other
    · simp [Upload.drop, phase, free]
  obtain ⟨final, last, clears, removes, same, present, id, finished⟩ :=
    exists_cleanup there pending memory ready
  obtain ⟨file, filed, _, blob, _⟩ := deserted.recorded record _ call
  have bare := deserted.bare left final final .refl clears removes .refl
  refine ⟨scene, left, final, upload, filedSample_opens, run, member, ⟨record, step, rest, call⟩,
    drops, .single (by trivial) clears, ⟨last, present, id.trans own, finished⟩,
    ⟨file, ?_, blob.trans name⟩, ?_⟩
  · rw [same]
    exact filed
  · rw [← name]
    exact bare

end Scene

end Strongroom
