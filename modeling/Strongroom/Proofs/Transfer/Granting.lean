import Strongroom.Proofs.Transfer.Heeding
import Strongroom.Proofs.Transfer.OwnFiles

/-! # What a user sees is granted

Where whatever the stores are asked for can be done, what the user sees goes on
and comes to its end in the scene as well. The caller's task goes on where it
can, the writer's task where the caller has to wait, and a flush runs to its end.
-/

namespace Strongroom

variable {δ : Type}

theorem Scene.GoesOn.trans {disk : Disk δ} {first second third : Scene δ}
    (goes : first.GoesOn disk second) (goes' : second.GoesOn disk third) :
    first.GoesOn disk third :=
  ⟨goes.1.trans goes'.1, goes'.2⟩

section

variable {disk : Disk δ} {root path : Option Path} {shelf : ConformingShelf disk root path}
  {good : δ → Prop} {user : UserId} {limit : Nat} {busy : Option FileId} {scene : Scene δ}
  {outlook outlook' : Outlook} {before upload : Upload} {act : Act} {service : Service} {d : δ}

theorem Scene.GoesOn.single (thrives : scene.Thrives) (member : before ∈ scene.uploads)
    {script : Script (Service × Upload)} (task : act = .caller ∨ act = .writer)
    (free : act = .caller → before.InsertDue → scene.Unlocked)
    (offers : before.Offers scene.service act script)
    (runs : Script.Runs disk scene.disk script (service, upload) d)
    (thrives' : (scene.after before act service upload d).Thrives) :
    scene.GoesOn disk (scene.after before act service upload d) := by
  refine ⟨.single ⟨thrives, ?_⟩ (.act member ?_ free offers runs), thrives'⟩
  · rcases task with rfl | rfl
    · exact .inr ⟨_, rfl⟩
    · exact .inl ⟨_, _, rfl, .inl rfl⟩
  · rcases task with rfl | rfl
    all_goals simp [Act.takesHandle]

namespace Depicts

/-- Nothing is flushed while the user sees an upload go on. -/
theorem unlocked_of_advance
    (depicts : Depicts shelf user limit (some upload.fileId) scene outlook)
    (member : upload ∈ scene.uploads)
    (advances : outlook.advance upload.fileId = some outlook') : scene.Unlocked :=
  depicts.unlocked fun other present here => by
    rw [depicts.single other present upload member (Option.some.inj here).symm]
    exact ((depicts.shadows upload member).of_advance advances).2.1

/-- Where the user sees an upload go on and its caller does not have to wait, it goes
    on alike. -/
theorem callerProceeds {script : Script (Service × Upload)}
    (obliges : disk.Obliges root path good)
    (depicts : Depicts shelf user limit (some upload.fileId) scene outlook)
    (heeds : scene.Heeds disk good outlook) (member : upload ∈ scene.uploads)
    (advances : outlook.advance upload.fileId = some outlook')
    (offered : upload.callerStep scene.service = some script) :
    ∃ scene', scene.GoesOn disk scene' ∧
      Depicts shelf user limit (some upload.fileId) scene' outlook' ∧
        scene'.Heeds disk good outlook' := by
  have shadowed := depicts.shadows upload member
  obtain ⟨unfiled, plain, _⟩ := shadowed.of_advance advances
  have thrives := depicts.thrives heeds
  have unlocked := depicts.unlocked_of_advance member advances
  obtain ⟨service, next, d, runs, fine⟩ := Upload.exists_callerRun
    (s := ⟨scene.service, upload, scene.disk⟩) obliges depicts.root depicts.conduct
    shadowed.named plain (heeds.fine unlocked) offered
  obtain ⟨later, goes, _, depicts'⟩ :=
    depicts.callerStep member (thrives upload member) offered runs
  obtain rfl : later = outlook' := by
    rcases goes with ⟨filed, _⟩ | step
    · exact absurd filed unfiled
    · exact Option.some.inj (step.symm.trans advances)
  obtain ⟨_, _, _, _, updates, _⟩ := Outlook.advance_cases advances
  have heeds' := heeds.acts obliges depicts member plain (.inr rfl)
    (moves_of_offers (.caller offered) runs) fine fun _ => Outlook.seen_of_update updates
  exact ⟨_, .single thrives member (.inl rfl) (fun _ _ => unlocked) (.caller offered) runs
    (depicts'.thrives heeds'), depicts', heeds'⟩

/-- Where the user sees an upload go on and its caller has to wait, its writer goes
    on, and has fewer steps left. -/
theorem writerProceeds (obliges : disk.Obliges root path good)
    (depicts : Depicts shelf user limit (some upload.fileId) scene outlook)
    (heeds : scene.Heeds disk good outlook) (member : upload ∈ scene.uploads)
    (advances : outlook.advance upload.fileId = some outlook')
    (waits : upload.callerStep scene.service = none) :
    ∃ scene' next, scene.GoesOn disk scene' ∧
      Depicts shelf user limit (some next.fileId) scene' outlook ∧
        scene'.Heeds disk good outlook ∧ next ∈ scene'.uploads ∧
          next.fileId = upload.fileId ∧ next.stepsLeft < upload.stepsLeft := by
  have shadowed := depicts.shadows upload member
  obtain ⟨_, plain, faithful, alone, same, moves⟩ := shadowed.of_advance advances
  have thrives := depicts.thrives heeds
  have unlocked := depicts.unlocked_of_advance member advances
  obtain ⟨live, wakes⟩ :=
    shadowed.stands.waits (heeds.room upload member) plain same moves waits
  obtain ⟨script, service, next, d, offered, runs, fine, stops⟩ := Upload.exists_writerRun
    (s := ⟨scene.service, upload, scene.disk⟩) obliges depicts.root depicts.conduct
    shadowed.named shadowed.owns (heeds.gate upload member) faithful live wakes
    (heeds.fine unlocked)
  have writes : WriterMoves disk ⟨scene.service, upload, scene.disk⟩ ⟨service, next, d⟩ :=
    moves_of_writerStep offered runs
  have call : next.call = upload.call := by
    have call := congrArg Upload.call writes.same.2
    exact call
  have fileId : next.fileId = upload.fileId := by
    have fileId := congrArg Upload.fileId writes.same.2
    exact fileId
  have thrives' : next.Thrives := ⟨stops, fun record e => call ▸ plain.call_ne_flushing record _⟩
  have depicts' := depicts.writerMoves member (thrives upload member) thrives' writes
  have heeds' := heeds.acts obliges depicts member plain (.inr rfl) (.writer writes) fine
    fun _ => .inl
  exact ⟨_, next, .single thrives member (.inr rfl) (fun _ _ => unlocked) (.writer offered) runs
    (depicts'.thrives heeds'), fileId ▸ depicts', heeds',
    Transfers.mem_store.2 (.inr ⟨rfl, upload, member, fileId.symm⟩), fileId,
    Upload.stepsLeft_writerMoves writes⟩

/-- Where the user sees an upload go on, it does so in the scene, once its writer has
    done what the caller waits for. -/
theorem proceeds (obliges : disk.Obliges root path good)
    (depicts : Depicts shelf user limit (some upload.fileId) scene outlook)
    (heeds : scene.Heeds disk good outlook) (member : upload ∈ scene.uploads)
    (advances : outlook.advance upload.fileId = some outlook') :
    ∃ scene', scene.GoesOn disk scene' ∧
      Depicts shelf user limit (some upload.fileId) scene' outlook' ∧
        scene'.Heeds disk good outlook' := by
  induction left : upload.stepsLeft using Nat.strong_induction_on generalizing scene upload with
  | _ count ih =>
      subst left
      cases offered : upload.callerStep scene.service with
      | some script => exact depicts.callerProceeds obliges heeds member advances offered
      | none =>
          obtain ⟨between, next, goes, depicts', heeds', there, fileId, less⟩ :=
            depicts.writerProceeds obliges heeds member advances offered
          rw [← fileId] at advances ⊢
          obtain ⟨scene', goes', rest⟩ := ih _ less depicts' heeds' there advances rfl
          exact ⟨scene', goes.trans goes', rest⟩

theorem flushStep {record : FileRecord} {rest : Script (Except Error Unit)} {next : Upload}
    {script : Script (Service × Upload)}
    (depicts : Depicts shelf user limit (some upload.fileId) scene outlook)
    (heeds : scene.Heeds disk good outlook) (member : upload ∈ scene.uploads)
    (call : upload.call = .flushing record rest) (ends : outlook.advance upload.fileId = none)
    (offered : upload.callerStep scene.service = some script)
    (runs : Script.Runs disk scene.disk script (service, next) d)
    (fine : (∀ record rest, next.call ≠ .flushing record rest) → good d)
    (flushing : ∀ record rest, next.call = .flushing record rest →
      ∃ d', Script.Runs disk d rest (.ok ()) d' ∧ good d') :
    ∃ scene', scene.GoesOn disk scene' ∧
      Depicts shelf user limit (some next.fileId) scene' outlook ∧
        scene'.Heeds disk good outlook ∧ next ∈ scene'.uploads ∧ next.fileId = upload.fileId := by
  have thrives := depicts.thrives heeds
  have moves : Moves disk ⟨scene.service, upload, scene.disk⟩ .caller ⟨service, next, d⟩ :=
    moves_of_offers (.caller offered) runs
  have fileId : next.fileId = upload.fileId :=
    (Footprint.of_moves (depicts.shadows upload member).owns moves).file.fileId
  obtain ⟨later, goes, _, depicts'⟩ :=
    depicts.callerStep member (thrives upload member) offered runs
  obtain rfl : later = outlook := by
    rcases goes with ⟨_, same⟩ | step
    · exact same
    · cases ends.symm.trans step
  have heeds' := heeds.after depicts member (.inr rfl) moves fine flushing fun _ => .inl
  have goes : scene.GoesOn disk (scene.after upload .caller service next d) := by
    refine .single thrives member (.inl rfl) (fun _ due => ?_) (.caller offered) runs
      (depicts'.thrives heeds')
    obtain ⟨_, _, joins, _⟩ := due
    cases call.symm.trans joins
  exact ⟨_, goes, fileId ▸ depicts', heeds',
    Transfers.mem_store.2 (.inr ⟨rfl, upload, member, fileId.symm⟩), fileId⟩

/-- A record that is being flushed is filed in the end. -/
theorem flushes {record : FileRecord} {rest : Script (Except Error Unit)}
    (depicts : Depicts shelf user limit (some upload.fileId) scene outlook)
    (heeds : scene.Heeds disk good outlook) (member : upload ∈ scene.uploads)
    (call : upload.call = .flushing record rest) (ends : outlook.advance upload.fileId = none) :
    ∃ scene' next, scene.GoesOn disk scene' ∧
      Depicts shelf user limit (some next.fileId) scene' outlook ∧
        scene'.Heeds disk good outlook ∧ next ∈ scene'.uploads ∧
          next.fileId = upload.fileId ∧ next.call = .answered (.ok (some record)) := by
  induction rest generalizing scene upload with
  | done result =>
      obtain ⟨d, runs, fine⟩ := heeds.flushing upload member record _ call
      obtain ⟨rfl, rfl⟩ := Script.runs_done.1 runs
      let filed : Upload := { upload with phase := .done }.answer (.ok (some record))
      have offered : upload.callerStep scene.service = some (pure (scene.service, filed)) := by
        simp only [Upload.callerStep, call]
        rfl
      obtain ⟨scene', goes, depicts', heeds', there, fileId⟩ :=
        depicts.flushStep heeds member call ends offered .done (fun _ => fine)
          fun _ _ flushing => by cases flushing
      exact ⟨scene', filed, goes, depicts', heeds', there, fileId, rfl⟩
  | step s more ih =>
      obtain ⟨d, runs, fine⟩ := heeds.flushing upload member record _ call
      obtain ⟨reply, d', replied, rest⟩ := Script.runs_step.1 runs
      let midway (reply : s.Reply) : Upload :=
        { upload with call := .flushing record (more reply) }
      have offered : upload.callerStep scene.service =
          some (.step s fun reply => pure (scene.service, midway reply)) := by
        simp only [Upload.callerStep, call]
        rfl
      have runs : Script.Runs disk scene.disk
          (.step s fun reply => pure (scene.service, midway reply)) (scene.service, midway reply)
          d' := .step replied .done
      obtain ⟨between, goes, depicts', heeds', there, fileId⟩ :=
        depicts.flushStep heeds member call ends offered runs
          (fun calm => absurd rfl (calm record (more reply)))
          fun _ _ flushing => by
            cases flushing
            exact ⟨d, rest, fine⟩
      obtain ⟨scene', next, goes', last⟩ := ih reply depicts' heeds' there rfl ends
      exact ⟨scene', next, goes.trans goes', last⟩

theorem answer? {result : Except Error (Option FileRecord)}
    (depicts : Depicts shelf user limit busy scene outlook) (member : upload ∈ scene.uploads)
    (call : upload.call = .answered result) :
    scene.toTransfers.answer? upload.fileId = some result := by
  cases found : scene.toTransfers.upload? upload.fileId with
  | none =>
      have absent := List.find?_eq_none.1 found upload member
      simp at absent
  | some other =>
      have present : other ∈ scene.uploads := List.mem_of_find?_eq_some found
      have same : other.fileId = upload.fileId := by simpa using List.find?_some found
      obtain rfl := depicts.single other present upload member same
      simp only [Transfers.answer?, found, Option.bind_some, Upload.answer?, call]

/-- A call that the user sees answered is answered in the end. -/
theorem settles {id : FileId} {last : Upload} {result : Except Error (Option FileRecord)}
    (depicts : Depicts shelf user limit (some id) scene outlook)
    (heeds : scene.Heeds disk good outlook) (here : outlook.upload? id = some last)
    (answered : last.call = .answered result) :
    ∃ scene', scene.GoesOn disk scene' ∧ scene'.toTransfers.answer? id = some result ∧
      scene'.Heeds disk good outlook := by
  obtain ⟨upload, member, rfl⟩ := heeds.present id (by rw [here]; rfl)
  obtain ⟨alone, here', _, follows⟩ := (depicts.shadows upload member).follows
  cases here.symm.trans here'
  have calm (same : upload = last.beside upload.queue upload.writer) :
      ∃ scene', scene.GoesOn disk scene' ∧
        scene'.toTransfers.answer? upload.fileId = some result ∧
          scene'.Heeds disk good outlook := by
    refine ⟨scene, ⟨.refl, depicts.thrives heeds⟩, depicts.answer? member ?_, heeds⟩
    rw [same]
    exact answered
  cases follows with
  | streams same | stops same | done same => exact calm same
  | files same done answered' =>
      cases answered.symm.trans answered'
      obtain ⟨scene', next, goes, depicts', heeds', there, fileId, call⟩ :=
        depicts.flushes heeds member (by rw [same]) (Outlook.advance_of_answered here answered)
      exact ⟨scene', goes, fileId ▸ depicts'.answer? there call, heeds'⟩

theorem runsOn {id : FileId} (obliges : disk.Obliges root path good)
    (depicts : Depicts shelf user limit (some id) scene outlook)
    (heeds : scene.Heeds disk good outlook)
    (course : Relation.ReflTransGen (fun a b : Outlook => a.advance id = some b)
      outlook outlook') :
    ∃ scene', scene.GoesOn disk scene' ∧
      Depicts shelf user limit (some id) scene' outlook' ∧ scene'.Heeds disk good outlook' := by
  induction course using Relation.ReflTransGen.head_induction_on generalizing scene with
  | refl => exact ⟨scene, ⟨.refl, depicts.thrives heeds⟩, depicts, heeds⟩
  | head advances _ ih =>
      obtain ⟨alone, _, here, _⟩ := Outlook.advance_cases advances
      obtain ⟨upload, member, rfl⟩ := heeds.present id (by rw [here]; rfl)
      obtain ⟨between, goes, depicts', heeds'⟩ := depicts.proceeds obliges heeds member advances
      obtain ⟨scene', goes', last⟩ := ih depicts' heeds'
      exact ⟨scene', goes.trans goes', last⟩

/-- A call that the user sees begun and answered can be begun, and is answered. -/
theorem grants {id : FileId} {begin : Service → Upload → Service × Upload}
    {result : Except Error (Option FileRecord)} (obliges : disk.Obliges root path good)
    (depicts : Depicts shelf user limit none scene outlook)
    (heeds : scene.Heeds disk good outlook) (calls : outlook.Calls id begin result outlook')
    (blind : Upload.Blind begin) (takes : act.takesHandle = true)
    (stays : ∀ inside, act ≠ .drop inside) (behaves : ∀ upload : Upload, upload.Behaves act)
    (offers : ∀ (service : Service) (upload : Upload),
      upload.MayCall → upload.Offers service act (pure (begin service upload))) :
    ∃ scene', scene.Calls disk id act result scene' ∧ scene'.Heeds disk good outlook' := by
  obtain ⟨alone, last, here, undone, course, present, answered⟩ := calls
  obtain ⟨upload, member, rfl⟩ := heeds.present id (by rw [here]; rfl)
  have shadowed := depicts.shadows upload member
  have mayCall := shadowed.mayCall here undone
  have plain := mayCall.1.plain
  have unlocked : scene.Unlocked := depicts.unlocked fun _ _ here => by cases here
  have offered := offers scene.service upload mayCall
  obtain ⟨service, next, begun⟩ : ∃ service next, begin scene.service upload = (service, next) :=
    ⟨_, _, rfl⟩
  have runs : Script.Runs disk scene.disk (pure (begin scene.service upload)) (service, next)
      scene.disk := Script.runs_pure.2 ⟨begun.symm, rfl⟩
  obtain ⟨alone', here', _, depicts'⟩ := depicts.enters member (depicts.thrives heeds) blind mayCall
    takes (behaves upload) stays offered runs
  cases here.symm.trans here'
  have heeds' : (scene.after upload act service next scene.disk).Heeds disk good
      (outlook.put upload.fileId (begin outlook.service alone).1
        (begin outlook.service alone).2) :=
    heeds.acts obliges depicts member plain (.inl rfl) (moves_of_offers offered runs)
      (heeds.fine unlocked) fun _ => Outlook.seen_of_update rfl
  obtain ⟨between, goes, depicts'', heeds''⟩ := depicts'.runsOn obliges heeds' course
  obtain ⟨scene', goes', answer, last⟩ := depicts''.settles heeds'' present answered
  refine ⟨scene', ⟨_, .act member (fun _ => ?_) (fun caller => ?_) offered runs,
    goes.trans goes', answer⟩, last⟩
  · rw [depicts.dropped]
    exact List.not_mem_nil
  · rw [caller] at takes
    cases takes

end Depicts

end

section

variable {disk : Disk δ} {root path : Option Path} {good : δ → Prop} {service : Service}
  {user : UserId} {id : FileId} {d : δ}

namespace Disk.Obliges

theorem deletesRecord {record : FileRecord} (obliges : disk.Obliges root path good)
    (pathed : service.catalog.path? = path) (conduct : service.conduct = {})
    (owned : service.ownedRecord id user = .ok record) (fine : good d) :
    ∃ catalog journal d', Script.Runs disk d (service.deleteRecord id user)
      (.ok record, { service with catalog, journal }) d' ∧ good d' := by
  obtain ⟨there, own⟩ := Service.ownedRecord_eq_ok.1 owned
  have same := (Entries.mem_of_file? there).2
  have deletes : service.catalog.entries.deleteFile record.id record.owner =
      .ok (record, service.catalog.entries.dropFile record.id) := by
    rw [same, Entries.deleteFile, show service.catalog.entries.file? id = some record from there]
    exact if_pos rfl
  let dropped := service.catalog.withEntries (service.catalog.entries.dropFile record.id)
  have pathed : dropped.path? = path := (Catalog.path?_withEntries _ _).trans pathed
  obtain ⟨d', flushed, fine'⟩ := obliges.flushes pathed fine
  have ready : (service.note .delete (toString id)).conduct.delete = none := by
    simp only [Service.note, conduct]
  refine ⟨dropped, ⟨.delete, toString id⟩ :: service.journal, d', ?_, fine'⟩
  simp only [Service.deleteRecord, owned, ready]
  refine Script.runs_bind.2 ⟨(.ok (), dropped), d', ?_, .done⟩
  simp only [Service.note, Catalog.delete, deletes, Catalog.settle]
  exact Script.runs_bind.2 ⟨_, d', flushed, .done⟩

theorem startsDownload (obliges : disk.Obliges root path good)
    (rooted : service.blobs.root? = root)
    (named : ∀ record, service.ownedRecord id user = .ok record → IsBlobName record.blobName)
    (fine : good d) :
    ∃ result journal d', Script.Runs disk d (Download.start service id user)
      (result, { service with journal }) d' ∧ good d' := by
  unfold Download.start
  cases owned : service.ownedRecord id user with
  | error e => exact ⟨_, service.journal, _, .done, fine⟩
  | ok record =>
      dsimp only
      cases service.keyOf record.owner with
      | error e => exact ⟨_, service.journal, _, .done, fine⟩
      | ok key =>
          obtain ⟨found, d', finds, fine'⟩ := obliges.finds rooted (named record owned) fine
          let journal : List Event := ⟨.get, record.blobName⟩ :: service.journal
          cases found with
          | error e =>
              cases e
              all_goals exact ⟨_, journal, d', Script.runs_bind.2 ⟨_, d', finds, .done⟩, fine'⟩
          | ok =>
              by_cases large : maxBuffer < (service.note .get record.blobName).config.readBufferSize
              · refine ⟨.error .panicked, journal, d', Script.runs_bind.2 ⟨_, d', finds, ?_⟩, fine'⟩
                dsimp only
                rw [if_pos large]
                exact .done
              · refine ⟨.ok (.ofSource record key service.config []), journal, d',
                  Script.runs_bind.2 ⟨_, d', finds, ?_⟩, fine'⟩
                dsimp only
                rw [if_neg large]
                exact .done

theorem readsDownload (obliges : disk.Obliges root path good) (rooted : service.blobs.root? = root)
    {download : Download} (named : IsBlobName download.record.blobName) (fine : good d) :
    ∃ result later d', Script.Runs disk d (download.next service) (result, later) d' ∧
      good d' := by
  obtain ⟨loaded, d', loads, fine'⟩ :
      ∃ loaded d', Script.Runs disk d (download.load service) loaded d' ∧ good d' := by
    unfold Download.load
    split
    · exact ⟨_, _, .done, fine⟩
    · obtain ⟨found, d', reads, fine'⟩ := obliges.reads rooted named fine
      cases found with
      | error text =>
          exact ⟨_, d', Script.runs_bind.2 ⟨_, d', reads, .done⟩, fine'⟩
      | ok data =>
          exact ⟨_, d', Script.runs_bind.2 ⟨_, d', reads, .done⟩, fine'⟩
  exact ⟨_, _, d', Script.runs_bind.2 ⟨_, d', loads, .done⟩, fine'⟩

end Disk.Obliges

end

section

variable {disk : Disk δ} {root path : Option Path} {shelf : ConformingShelf disk root path}
  {good : δ → Prop} {user : UserId} {limit : Nat} {desk : Desk δ} {outlook outlook' : Outlook}
  {wish : Wish} {reply : Reply}

/-- A wish that the user sees granted can be served. -/
theorem Depicts.serves (obliges : disk.Obliges root path good)
    (depicts : Depicts shelf user limit none desk.scene outlook)
    (downloads : outlook.downloads = desk.downloads)
    (heeds : desk.scene.Heeds disk good outlook)
    (gives : outlook.Gives user limit wish reply outlook') :
    ∃ reply' desk', desk.Serves disk user limit wish reply' desk' ∧
      desk'.scene.Heeds disk good outlook' := by
  have unlocked : desk.scene.Unlocked := depicts.unlocked fun _ _ here => by cases here
  have fine := heeds.fine unlocked
  have named (id : FileId) (record : FileRecord)
      (owned : desk.scene.service.ownedRecord id user = .ok record) :
      IsBlobName record.blobName :=
    (depicts.objects _ (depicts.known _ _ (depicts.ownedRecord_iff.1 owned))).1
  cases gives with
  | start starts within =>
      obtain ⟨transfers, started, within', heeds'⟩ := depicts.begins heeds starts within
      exact ⟨_, _, .start started within', heeds'⟩
  | write calls =>
      obtain ⟨scene', calls', heeds'⟩ : ∃ scene', desk.scene.Calls disk _ (.write _) _ scene' ∧ _ :=
        depicts.grants obliges heeds calls (Upload.blind_write _) rfl (by simp)
          (fun _ => trivial) fun _ _ => .write
      exact ⟨_, _, .write calls', heeds'⟩
  | commit calls =>
      obtain ⟨scene', calls', heeds'⟩ : ∃ scene', desk.scene.Calls disk _ .commit _ scene' ∧ _ :=
        depicts.grants obliges heeds calls Upload.blind_commit rfl (by simp)
          (fun _ => trivial) fun _ _ => .commit
      exact ⟨_, _, .commit calls', heeds'⟩
  | notUploaded starts within =>
      obtain ⟨transfers, started, within', heeds'⟩ := depicts.begins heeds starts within
      exact ⟨_, _, .notUploaded started within', heeds'⟩
  | upload starts within calls =>
      obtain ⟨transfers, started, within', heeds'⟩ := depicts.begins heeds starts within
      have depicts' := (depicts.started started within').1
      rw [starts] at depicts'
      obtain ⟨scene', calls', heeds''⟩ : ∃ scene', Scene.Calls disk _ (.feed _) _ _ scene' ∧ _ :=
        depicts'.grants obliges heeds' calls (Upload.blind_fedFrom _) rfl (by simp)
          (fun _ => trivial) fun _ _ => .feed
      exact ⟨_, _, .upload started within' calls', heeds''⟩
  | download | notFound =>
      obtain ⟨result, journal, d, runs, fine'⟩ :=
        obliges.startsDownload depicts.root (named _) fine
      exact ⟨_, _, .download runs, heeds.beside unlocked rfl fine' rfl⟩
  | next there =>
      have known := depicts.downloads _ (List.mem_of_getElem? there)
      obtain ⟨result, later, d, runs, fine'⟩ :=
        obliges.readsDownload depicts.root (depicts.objects _ known).1 fine
      exact ⟨_, _, .next (downloads ▸ there) runs, heeds.beside unlocked rfl fine' rfl⟩
  | delete there =>
      have owned := depicts.ownedRecord_iff.2 there
      obtain ⟨catalog, journal, d, deletes, fine'⟩ :=
        obliges.deletesRecord depicts.path depicts.conduct owned fine
      obtain ⟨service, d', removes, fine''⟩ : ∃ service d', Script.Runs disk d
          (Service.removeBlob { desk.scene.service with catalog, journal } _)
          (.ok (), service) d' ∧ good d' :=
        obliges.removesBlob depicts.root depicts.conduct (named _ _ owned) fine'
      obtain ⟨blobs, rfl, _⟩ := Service.runs_removeBlob removes
      exact ⟨_, _, .delete deletes removes, heeds.beside unlocked rfl fine'' rfl⟩
  | notDeleted absent =>
      cases owned : desk.scene.service.ownedRecord _ user with
      | ok record => cases (depicts.ownedRecord_iff.1 owned).symm.trans absent
      | error e =>
          refine ⟨_, _, .notDeleted owned ?_, heeds⟩
          rw [Service.deleteFile, owned]
          exact .done
  | list => exact ⟨_, _, .list, heeds⟩
  | wait => exact ⟨_, _, .wait, heeds.beside unlocked rfl fine rfl⟩

end

end Strongroom
