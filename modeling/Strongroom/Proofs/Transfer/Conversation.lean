import Strongroom.Proofs.Transfer.Depiction
import Strongroom.Proofs.Transfer.Schedule

/-! # Conversations with the service

A user asks, waits for the reply, and asks again, while the tasks of the uploads
go on in any order. As long as no store fails, each reply is the one that what
the user sees gives.
-/

namespace Strongroom

variable {δ : Type}

/-- No store has failed an upload that goes on, or a flush. -/
def Scene.Thrives (scene : Scene δ) : Prop :=
  ∀ upload ∈ scene.uploads, upload.Thrives

/-- Tasks of uploads go on, and no store fails. -/
def Scene.GoesOn (disk : Disk δ) (scene scene' : Scene δ) : Prop :=
  scene.Reaches disk (fun scene deed => scene.Thrives ∧ deed.IsTask) scene' ∧ scene'.Thrives

/-- An upload is called, and its call is answered in the end. -/
def Scene.Calls (disk : Disk δ) (id : FileId) (act : Act) (scene : Scene δ)
    (result : Except Error (Option FileRecord)) (scene' : Scene δ) : Prop :=
  ∃ begun, scene.Steps disk (.act id act) begun ∧ begun.GoesOn disk scene' ∧
    scene'.toTransfers.answer? id = some result

/-- A scene with the downloads that its user has open. -/
structure Desk (δ : Type) where
  scene : Scene δ
  downloads : List Download := []

namespace Desk

/-- A wish is served, and no store fails meanwhile. No more than the first `limit`
    identifiers are drawn. -/
inductive Serves (disk : Disk δ) (user : UserId) (limit : Nat) (desk : Desk δ) :
    Wish → Reply → Desk δ → Prop where
  | start {fileName : String} {result : Except Halt FileId} {transfers : Transfers} :
    desk.scene.toTransfers.start user fileName = (result, transfers) →
      transfers.service.ids.used ≤ limit →
        Serves disk user limit desk (.start fileName) (.started result)
          { desk with scene := { desk.scene with toTransfers := transfers } }
  | write {id : FileId} {data : Bytes} {result : Except Error (Option FileRecord)}
      {scene : Scene δ} :
    desk.scene.Calls disk id (.write data) result scene →
      Serves disk user limit desk (.write id data) (.called result) { desk with scene }
  | commit {id : FileId} {result : Except Error (Option FileRecord)} {scene : Scene δ} :
    desk.scene.Calls disk id .commit result scene →
      Serves disk user limit desk (.commit id) (.called result) { desk with scene }
  | notUploaded {fileName : String} {items : List Inbound} {halt : Halt}
      {transfers : Transfers} :
    desk.scene.toTransfers.start user fileName = (.error halt, transfers) →
      transfers.service.ids.used ≤ limit →
        Serves disk user limit desk (.upload fileName items) (.started (.error halt))
          { desk with scene := { desk.scene with toTransfers := transfers } }
  | upload {fileName : String} {items : List Inbound} {id : FileId} {transfers : Transfers}
      {result : Except Error (Option FileRecord)} {scene : Scene δ} :
    desk.scene.toTransfers.start user fileName = (.ok id, transfers) →
      transfers.service.ids.used ≤ limit →
        { desk.scene with toTransfers := transfers }.Calls disk id (.feed items) result scene →
          Serves disk user limit desk (.upload fileName items) (.called result) { desk with scene }
  | download {id : FileId} {result : Except Halt Download} {service : Service} {d : δ} :
    Script.Runs disk desk.scene.disk (Download.start desk.scene.service id user)
        (result, service) d →
      Serves disk user limit desk (.download id) (.opened (result.map Download.record))
        { scene := { desk.scene with service, disk := d }
          downloads := desk.downloads ++ result.toOption.toList }
  | next {index : Nat} {download later : Download} {result : Except Error (Option Bytes)} {d : δ} :
    desk.downloads[index]? = some download →
      Script.Runs disk desk.scene.disk (download.next desk.scene.service) (result, later) d →
        Serves disk user limit desk (.next index) (.piece result)
          { scene := { desk.scene with disk := d }
            downloads := desk.downloads.set index later }
  /-- The record of an own file is deleted, and then its blob is removed. -/
  | delete {id : FileId} {record : FileRecord} {service service' : Service} {d d' : δ} :
    Script.Runs disk desk.scene.disk (desk.scene.service.deleteRecord id user)
        (.ok record, service) d →
      Script.Runs disk d (service.removeBlob record.blobName) (.ok (), service') d' →
        Serves disk user limit desk (.delete id) (.deleted (.ok ()))
          { desk with scene := { desk.scene with service := service', disk := d' } }
  | notDeleted {id : FileId} {e : Error} {service : Service} {d : δ} :
    desk.scene.service.ownedRecord id user = .error e →
      Script.Runs disk desk.scene.disk (desk.scene.service.deleteFile id user)
          (.error e, service) d →
        Serves disk user limit desk (.delete id) (.deleted (.error e))
          { desk with scene := { desk.scene with service, disk := d } }
  | list :
    Serves disk user limit desk .list (.listed (desk.scene.service.listFiles user)) desk
  | wait {clock : Nat} :
    Serves disk user limit desk (.wait clock) .waited
      { desk with scene :=
        { desk.scene with service := { desk.scene.service with clock } } }

/-- Wishes are served one after the other, and in between tasks go on as they
    will. -/
inductive Converses (disk : Disk δ) (user : UserId) (limit : Nat) :
    Desk δ → List Wish → List Reply → Desk δ → Prop where
  | nil {desk : Desk δ} : Converses disk user limit desk [] [] desk
  | cons {desk between last : Desk δ} {scene : Scene δ} {wish : Wish} {reply : Reply}
      {wishes : List Wish} {replies : List Reply} :
    desk.scene.GoesOn disk scene → { desk with scene }.Serves disk user limit wish reply between →
      Converses disk user limit between wishes replies last →
        Converses disk user limit desk (wish :: wishes) (reply :: replies) last

end Desk

namespace Upload.Offers

variable {service : Service} {upload : Upload} {script : Script (Service × Upload)}

theorem of_write {data : Bytes} (offers : upload.Offers service (.write data) script) :
    upload.MayCall ∧ upload.Behaves (.write data) ∧ script = pure (upload.write service data) := by
  cases offers with
  | write mayCall => exact ⟨mayCall, trivial, rfl⟩

theorem of_commit (offers : upload.Offers service .commit script) :
    upload.MayCall ∧ upload.Behaves .commit ∧ script = pure (upload.commit service) := by
  cases offers with
  | commit mayCall => exact ⟨mayCall, trivial, rfl⟩

theorem of_feed {items : List Inbound} (offers : upload.Offers service (.feed items) script) :
    upload.MayCall ∧ upload.Behaves (.feed items) ∧
      script = pure (service, upload.fedFrom items) := by
  cases offers with
  | feed mayCall => exact ⟨mayCall, trivial, rfl⟩

end Upload.Offers

namespace Depicts

variable {disk : Disk δ} {root path : Option Path} {shelf : ConformingShelf disk root path}
  {user : UserId} {limit : Nat} {busy : Option FileId} {scene scene' : Scene δ}
  {outlook : Outlook} {id : FileId}

theorem task {deed : Deed} (depicts : Depicts shelf user limit busy scene outlook)
    (thrives : scene.Thrives) (task : deed.IsTask) (steps : scene.Steps disk deed scene')
    (thrives' : scene'.Thrives) :
    ∃ outlook', (outlook' = outlook ∨
        ∃ id, busy = some id ∧ outlook.advance id = some outlook') ∧
      Depicts shelf user limit busy scene' outlook' := by
  rcases task with ⟨id, act, rfl, writer | cleanup⟩ | ⟨id, rfl⟩
  · subst writer
    cases steps with
    | @act before upload _ _ service d member _ _ offers runs =>
        have moves : Moves disk ⟨scene.service, before, scene.disk⟩ .writer ⟨service, upload, d⟩ :=
          moves_of_offers offers runs
        have present : upload ∈ (scene.after before .writer service upload d).uploads := by
          refine Transfers.mem_store.2 (.inr ⟨rfl, before, member, ?_⟩)
          exact (Footprint.of_moves (depicts.shadows before member).owns moves).file.fileId.symm
        cases offers with
        | writer offered =>
            exact ⟨outlook, .inl rfl, depicts.writerMoves member (thrives before member)
              (thrives' upload present) (moves_of_writerStep offered runs)⟩
  · subst cleanup
    cases steps with
    | @act before upload _ _ service d member _ _ offers runs =>
        cases offers with
        | cleanup offered =>
            have stands := (depicts.shadows before member).stands
            have left : before.cleanup ≠ .none := by
              intro nothing
              simp [Upload.cleanupStep, nothing] at offered
            exact (stands.behind left).1.elim
  · cases steps with
    | @act before upload _ _ service d member _ _ offers runs =>
        cases offers with
        | caller offered =>
            obtain ⟨outlook', seen, busy, depicts'⟩ :=
              depicts.callerStep member (thrives before member) offered runs
            exact ⟨outlook', seen.imp And.right fun step => ⟨_, busy, step⟩, depicts'⟩

/-- While tasks go on, what the user sees goes on with the call that is under way,
    or stays. -/
theorem goesOn (depicts : Depicts shelf user limit busy scene outlook)
    (goes : scene.GoesOn disk scene') :
    ∃ outlook', Relation.ReflTransGen
        (fun first second => ∃ id, busy = some id ∧ first.advance id = some second)
        outlook outlook' ∧
      Depicts shelf user limit busy scene' outlook' := by
  obtain ⟨reaches, thrives⟩ := goes
  induction reaches with
  | refl => exact ⟨outlook, .refl, depicts⟩
  | step _ allowed steps ih =>
      obtain ⟨between, course, middle⟩ := ih allowed.1
      obtain ⟨outlook', seen, last⟩ := middle.task allowed.1 allowed.2 steps thrives
      rcases seen with rfl | step
      · exact ⟨outlook', course, last⟩
      · exact ⟨outlook', course.tail step, last⟩

theorem enters {before upload : Upload} {act : Act} {service : Service} {d : δ}
    {begin : Service → Upload → Service × Upload}
    (depicts : Depicts shelf user limit none scene outlook) (member : before ∈ scene.uploads)
    (thrives : scene.Thrives) (blind : Upload.Blind begin) (mayCall : before.MayCall)
    (takes : act.takesHandle = true) (behaves : before.Behaves act)
    (stays : ∀ inside, act ≠ .drop inside)
    (offers : before.Offers scene.service act (pure (begin scene.service before)))
    (runs : Script.Runs disk scene.disk (pure (begin scene.service before)) (service, upload) d) :
    ∃ alone, outlook.upload? before.fileId = some alone ∧ alone.phase ≠ .done ∧
      Depicts shelf user limit (some before.fileId) (scene.after before act service upload d)
        (outlook.put before.fileId (begin outlook.service alone).1
          (begin outlook.service alone).2) := by
  have shadowed := depicts.shadows before member
  obtain ⟨alone, here, plain, follows⟩ := shadowed.follows
  have unfiled : ¬ before.InCatalog := by
    rintro (done | ⟨record, rest, call⟩)
    · exact mayCall.2 done
    · have ready := mayCall.1
      rw [Upload.IsReady, call] at ready
      exact ready
  have rest : before.AtRest act := .inl ⟨mayCall, takes⟩
  have rest : before.Streams ∨ before.phase = .failed :=
    (shadowed.stands.atRest rest fun _ => id).imp And.left And.left
  obtain ⟨random, next, begun, sees, begins, plain', follows'⟩ :=
    follows.begins blind unfiled rest depicts.same.random
  have moves : Moves disk ⟨scene.service, before, scene.disk⟩ act ⟨service, upload, d⟩ :=
    moves_of_offers offers runs
  obtain ⟨same, rfl⟩ := Script.runs_pure.1 runs
  cases same.trans begins
  refine ⟨alone, here, ?_, ?_⟩
  · have phase := congrArg Upload.phase (follows.beside_of_unfiled unfiled)
    exact fun done => mayCall.2 (phase.trans done)
  rw [sees]
  exact depicts.acts member behaves stays (thrives before member) moves rfl depicts.conduct rfl
    (fun known => absurd (shadowed.secret known) unfiled) plain' follows' (.inr rfl) (.inr rfl)

theorem answered {result : Except Error (Option FileRecord)}
    (depicts : Depicts shelf user limit (some id) scene outlook)
    (answered : scene.toTransfers.answer? id = some result) :
    (∃ last, outlook.upload? id = some last ∧ last.call = .answered result) ∧
      Depicts shelf user limit none scene outlook := by
  obtain ⟨upload, found, here⟩ := Option.bind_eq_some_iff.1 answered
  have member : upload ∈ scene.uploads := List.mem_of_find?_eq_some found
  obtain rfl : upload.fileId = id := by simpa using List.find?_some found
  have call : upload.call = .answered result := by
    unfold Upload.answer? at here
    split at here
    · rename_i call
      cases here
      exact call
    · cases here
  have shadowed := depicts.shadows upload member
  obtain ⟨last, seen, plain, follows⟩ := shadowed.follows
  refine ⟨⟨last, seen, ?_⟩, depicts.toBelongings, depicts.dropped, depicts.single, ?_⟩
  · cases follows with
    | streams same | stops same | done same =>
        rw [same] at call
        exact call
    | files same =>
        rw [same] at call
        cases call
  · intro other present
    have shadows := depicts.shadows other present
    refine shadows.aside rfl (Nat.le_refl _) id id (fun _ => rfl) rfl (.inl ?_)
    rcases shadows.ready with ready | same
    · exact ready
    · obtain rfl := depicts.single upload member other present (Option.some.inj same)
      rw [Upload.IsReady, call]
      trivial

/-- A call is answered as the user sees it. -/
theorem calls {act : Act} {begin : Service → Upload → Service × Upload}
    {result : Except Error (Option FileRecord)}
    (depicts : Depicts shelf user limit none scene outlook) (thrives : scene.Thrives)
    (blind : Upload.Blind begin) (takes : act.takesHandle = true)
    (stays : ∀ inside, act ≠ .drop inside)
    (begins : ∀ (service : Service) (upload : Upload) (script : Script (Service × Upload)),
      upload.Offers service act script →
        upload.MayCall ∧ upload.Behaves act ∧ script = pure (begin service upload))
    (calls : scene.Calls disk id act result scene') :
    ∃ outlook', outlook.Calls id begin result outlook' ∧
      Depicts shelf user limit none scene' outlook' := by
  obtain ⟨begun, steps, goes, answered⟩ := calls
  cases steps with
  | @act before upload _ script service d member _ _ offers runs =>
      obtain ⟨mayCall, behaves, rfl⟩ := begins _ _ _ offers
      obtain ⟨alone, here, undone, entered⟩ :=
        depicts.enters member thrives blind mayCall takes behaves stays offers runs
      obtain ⟨outlook', course, last⟩ := entered.goesOn goes
      obtain ⟨⟨upload', present, call⟩, depicts'⟩ := last.answered answered
      refine ⟨outlook', ⟨alone, upload', here, undone, ?_, present, call⟩, depicts'⟩
      refine Relation.ReflTransGen.mono (fun first second step => ?_) _ _ course
      obtain ⟨_, same, advances⟩ := step
      cases same
      exact advances

end Depicts

namespace Upload

theorem start_sameFor {service other : Service} {user : UserId}
    (same : service.SameFor user other) (fileName : String) :
    ∃ ids, Upload.start service user fileName =
        ((Upload.start other user fileName).1, { service with ids }) ∧
      (Upload.start other user fileName).2 = { other with ids } := by
  obtain ⟨blobs, catalog, master, config, random, ids, clock, conduct, journal⟩ := service
  obtain ⟨key, config', random', ids', clock'⟩ := same
  dsimp only at config' random' ids' clock'
  subst config' random' ids' clock'
  unfold Upload.start
  rw [key]
  cases checkFileName fileName with
  | error fault => exact ⟨other.ids, rfl, rfl⟩
  | ok name =>
      cases other.keyOf user with
      | error e => exact ⟨other.ids, rfl, rfl⟩
      | ok key =>
          dsimp only
          cases Stream.Encoder.create key other.config.blockSize with
          | error e => exact ⟨other.ids, rfl, rfl⟩
          | ok encoder =>
              dsimp only
              split
              · exact ⟨_, rfl, rfl⟩
              · exact ⟨_, rfl, rfl⟩

end Upload

section

variable {disk : Disk δ} {root path : Option Path} {shelf : ConformingShelf disk root path}
  {user : UserId} {busy : Option FileId} {scene : Scene δ} {outlook : Outlook}

theorem Shadows.of_begins {service : Service} {upload : Upload}
    (begins : Transfers.Begins service user upload)
    (tape : scene.service.ids.tape = service.ids.tape)
    (used : service.ids.used + 1 < scene.service.ids.used)
    (unknown : ¬ outlook.Known upload.blobName)
    (free : scene.service.catalog.file? upload.fileId = none)
    (alone : outlook.upload? upload.fileId = some upload) :
    Shadows shelf user busy scene outlook upload := by
  obtain ⟨streams, phase, idle⟩ := begins.stands
  obtain ⟨writer, queue⟩ := begins.writer
  constructor
  case owner => exact begins.belongs
  case drawn =>
    refine ⟨service.ids.used, used, ?_⟩
    rw [tape]
    exact ⟨begins.fileId, begins.blobName⟩
  case stands => exact .receiving streams phase (.inl idle)
  case owns =>
    intro draft writes
    rw [writer] at writes
    cases writes
  case flushing =>
    intro record rest flushing
    cases idle.symm.trans flushing
  case secret => exact fun known => absurd known unknown
  case free => exact fun _ => free
  case ready =>
    left
    rw [Upload.IsReady, idle]
    exact begins.inbound
  case follows =>
    refine ⟨upload, alone, ?_, .streams rfl streams.running ?_ ?_ (.nothing (.inl writer)) ?_ ?_⟩
    · rw [Upload.IsPlain, idle]
      trivial
    · simp [phase]
    · simp [phase]
    · rw [List.nil_append]
    · rw [writer]
      exact fun _ => rfl

end

namespace Depicts

variable {disk : Disk δ} {root path : Option Path} {shelf : ConformingShelf disk root path}
  {user : UserId} {limit : Nat} {busy : Option FileId} {scene scene' : Scene δ}
  {outlook : Outlook} {id : FileId}

/-- Identifiers are drawn, and a new upload may join the others. -/
theorem started {fileName : String} {result : Except Halt FileId} {transfers : Transfers}
    (depicts : Depicts shelf user limit none scene outlook)
    (started : scene.toTransfers.start user fileName = (result, transfers))
    (within : transfers.service.ids.used ≤ limit) :
    Depicts shelf user limit none { scene with toTransfers := transfers }
        (outlook.start user fileName).2 ∧
      (outlook.start user fileName).1 = result := by
  obtain ⟨ids, tape, drawn, outcome⟩ := Transfers.start_cases started
  obtain ⟨ids', here, there⟩ := Upload.start_sameFor depicts.same fileName
  have same : { scene.service with ids }.SameFor user { outlook.service with ids } :=
    ⟨depicts.same.key, depicts.same.config, depicts.same.random, rfl, depicts.same.clock⟩
  have belongings (more : scene.service.ids.used ≤ ids.used) (uploads : List Upload)
      (upload? : FileId → Option Upload) :
      Belongings shelf user limit
        { scene with toTransfers := ⟨{ scene.service with ids }, uploads⟩ }
        { outlook with service := { outlook.service with ids }, upload? } :=
    depicts.toBelongings.quiet depicts.root rfl depicts.conduct same tape more (drawn ▸ within)
      rfl rfl rfl depicts.downloads fun _ _ => rfl
  unfold Transfers.start at started
  unfold Outlook.start
  rw [here] at started
  generalize Upload.start outlook.service user fileName = begun at *
  obtain ⟨halt | upload, service⟩ := begun
  · cases started
    cases there
    cases drawn
    rcases outcome with ⟨_, more⟩ | ⟨fresh, grown, _⟩
    · refine ⟨⟨belongings more _ _, depicts.dropped, depicts.single, fun other old => ?_⟩, rfl⟩
      have shadows := depicts.shadows other old
      exact shadows.aside tape more id id (fun _ => rfl) rfl shadows.ready
    · simp at grown
  · cases started
    cases there
    cases drawn
    rcases outcome with ⟨grown, _⟩ | ⟨fresh, grown, used, begins⟩
    · simp at grown
    · obtain rfl : upload = fresh := by simpa using grown
      have within : scene.service.ids.used + 2 ≤ limit := used ▸ within
      have more : scene.service.ids.used ≤ ids.used := by omega
      obtain ⟨free, _⟩ := depicts.undrawn scene.service.ids.used (Nat.le_refl _) (by omega)
      obtain ⟨_, unknown⟩ := depicts.undrawn (scene.service.ids.used + 1) (by omega) (by omega)
      have unlike {other : Upload} (old : other ∈ scene.uploads) :
          other.fileId ≠ upload.fileId := by
        rw [begins.fileId]
        exact (depicts.spent old (Nat.le_refl _) (by omega)).1
      refine ⟨⟨belongings more _ _, depicts.dropped, ?_, ?_⟩, rfl⟩
      · intro first present second present' same
        rcases List.mem_append.1 present with old | new
        · rcases List.mem_append.1 present' with old' | new'
          · exact depicts.single first old second old' same
          · rw [List.mem_singleton.1 new'] at same
            exact absurd same (unlike old)
        · rcases List.mem_append.1 present' with old' | new'
          · rw [List.mem_singleton.1 new] at same
            exact absurd same.symm (unlike old')
          · rw [List.mem_singleton.1 new, List.mem_singleton.1 new']
      · intro other present
        rcases List.mem_append.1 present with old | new
        · have shadows := depicts.shadows other old
          exact shadows.aside tape more id id (fun _ => rfl) (Function.update_of_ne (unlike old) ..)
            shadows.ready
        · obtain rfl := List.mem_singleton.1 new
          exact .of_begins begins tape (by simp only [used]; omega) (begins.blobName ▸ unknown)
            (begins.fileId ▸ free) (Function.update_self ..)

end Depicts

end Strongroom
