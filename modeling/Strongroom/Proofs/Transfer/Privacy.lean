import Strongroom.CommandLine.Run
import Strongroom.Proofs.Blob.Housing
import Strongroom.Proofs.Blob.Memory
import Strongroom.Proofs.Transfer.Granting
import Strongroom.Proofs.Transfer.Lifecycle

/-! # The files of others

What a user asks for is answered from what the user sees, and that is the own
key, the own records and their blobs. So two services that agree on these cannot
be told apart, whatever else they hold and in whatever order their tasks run.
-/

namespace Strongroom

variable {δ δ' : Type}

namespace Outlook

variable {user : UserId} {limit : Nat}

/-- Wishes are granted one after the other. -/
inductive Tells (user : UserId) (limit : Nat) : Outlook → List Wish → List Reply → Prop where
  | nil {outlook : Outlook} : Tells user limit outlook [] []
  | cons {outlook outlook' : Outlook} {wish : Wish} {reply : Reply} {wishes : List Wish}
      {replies : List Reply} :
    outlook.Gives user limit wish reply outlook' → Tells user limit outlook' wishes replies →
      Tells user limit outlook (wish :: wishes) (reply :: replies)

theorem Tells.alike {outlook : Outlook} {wishes : List Wish} {replies replies' : List Reply}
    (tells : outlook.Tells user limit wishes replies)
    (tells' : outlook.Tells user limit wishes replies') :
    List.Forall₂ Reply.Alike replies replies' := by
  induction tells generalizing replies' with
  | nil =>
      cases tells'
      exact .nil
  | cons gives _ ih =>
      cases tells' with
      | cons gives' rest' =>
          obtain ⟨alike, rfl⟩ := gives.alike gives'
          exact .cons alike (ih rest')

theorem downloads_course {first last : Outlook} {id : FileId}
    (course : Relation.ReflTransGen (fun a b : Outlook => a.advance id = some b) first last) :
    last.downloads = first.downloads := by
  induction course with
  | refl => rfl
  | tail _ step ih =>
      obtain ⟨_, _, _, _, _, same⟩ := advance_cases step
      exact same.trans ih

theorem Calls.downloads {outlook outlook' : Outlook} {id : FileId}
    {begin : Service → Upload → Service × Upload} {result : Except Error (Option FileRecord)}
    (calls : outlook.Calls id begin result outlook') : outlook'.downloads = outlook.downloads := by
  obtain ⟨upload, _, _, _, course, _⟩ := calls
  have same := downloads_course course
  exact same

theorem downloads_start (outlook : Outlook) (user : UserId) (fileName : String) :
    (outlook.start user fileName).2.downloads = outlook.downloads := by
  unfold start
  split
  · rfl
  · rfl

end Outlook

section

variable {disk : Disk δ} {root path : Option Path} {shelf : CandidShelf disk root path}
  {user : UserId} {limit : Nat}

theorem Scene.Thrives.started {scene : Scene δ} {fileName : String}
    {result : Except Halt FileId} {transfers : Transfers} (thrives : scene.Thrives)
    (started : scene.toTransfers.start user fileName = (result, transfers)) :
    Scene.Thrives { scene with toTransfers := transfers } := by
  obtain ⟨_, _, _, ⟨uploads, _⟩ | ⟨fresh, uploads, _, begins⟩⟩ := Transfers.start_cases started
  · intro upload member
    exact thrives upload (uploads ▸ member)
  · intro upload member
    have member : upload ∈ transfers.uploads := member
    rw [uploads] at member
    rcases List.mem_append.1 member with old | new
    · exact thrives upload old
    · rw [List.mem_singleton.1 new]
      constructor
      · intro e ended
        cases begins.writer.1.symm.trans ended
      · intro record e call
        cases begins.stands.2.2.symm.trans call

theorem Depicts.starts {scene : Scene δ} {outlook : Outlook} {fileName : String}
    {result : Except Halt FileId} {transfers : Transfers}
    (depicts : Depicts shelf.toConformingShelf user limit none scene outlook)
    (started : scene.toTransfers.start user fileName = (result, transfers))
    (within : transfers.service.ids.used ≤ limit) :
    ∃ outlook', outlook.start user fileName = (result, outlook') ∧
      outlook'.service.ids.used ≤ limit ∧
        Depicts shelf.toConformingShelf user limit none { scene with toTransfers := transfers }
          outlook' ∧ outlook'.downloads = outlook.downloads := by
  obtain ⟨depicts', same⟩ := depicts.started started within
  refine ⟨_, ?_, depicts'.same.ids ▸ within, depicts', outlook.downloads_start user fileName⟩
  rw [← same]

/-- A wish is served as the user sees it. -/
theorem Desk.Serves.gives {desk desk' : Desk δ} {wish : Wish} {reply : Reply} {outlook : Outlook}
    (serves : desk.Serves disk user limit wish reply desk')
    (depicts : Depicts shelf.toConformingShelf user limit none desk.scene outlook)
    (downloads : outlook.downloads = desk.downloads) (thrives : desk.scene.Thrives) :
    ∃ outlook', outlook.Gives user limit wish reply outlook' ∧
      Depicts shelf.toConformingShelf user limit none desk'.scene outlook' ∧
        outlook'.downloads = desk'.downloads := by
  cases serves with
  | start started within =>
      obtain ⟨outlook', starts, bound, depicts', same⟩ := depicts.starts started within
      exact ⟨outlook', .start starts bound, depicts', same.trans downloads⟩
  | write calls =>
      obtain ⟨outlook', calls', depicts'⟩ := depicts.calls thrives (Upload.blind_write _) rfl
        (by simp) (fun _ _ _ => Upload.Offers.of_write) calls
      exact ⟨outlook', .write calls', depicts', calls'.downloads.trans downloads⟩
  | commit calls =>
      obtain ⟨outlook', calls', depicts'⟩ := depicts.calls thrives Upload.blind_commit rfl
        (by simp) (fun _ _ _ => Upload.Offers.of_commit) calls
      exact ⟨outlook', .commit calls', depicts', calls'.downloads.trans downloads⟩
  | notUploaded started within =>
      obtain ⟨outlook', starts, bound, depicts', same⟩ := depicts.starts started within
      exact ⟨outlook', .notUploaded starts bound, depicts', same.trans downloads⟩
  | upload started within calls =>
      obtain ⟨begun, starts, bound, depicts', same⟩ := depicts.starts started within
      obtain ⟨outlook', calls', depicts''⟩ := depicts'.calls (thrives.started started)
        (Upload.blind_fedFrom _) rfl (by simp) (fun _ _ _ => Upload.Offers.of_feed) calls
      exact ⟨outlook', .upload starts bound calls', depicts'',
        calls'.downloads.trans (same.trans downloads)⟩
  | download runs =>
      rcases depicts.opened runs with ⟨absent, ⟨e, rfl, told⟩, depicts'⟩ |
        ⟨record, there, rfl, depicts'⟩
      · exact ⟨outlook, .notFound absent told, depicts', downloads.trans (List.append_nil _).symm⟩
      · exact ⟨_, .download there, depicts', by simp [downloads]⟩
  | next there runs =>
      rw [← downloads] at there
      obtain ⟨reads, depicts'⟩ := depicts.read there runs
      exact ⟨_, .next there reads, depicts', by simp [downloads]⟩
  | delete deletes removes =>
      obtain ⟨there, depicts'⟩ := depicts.deleted deletes removes
      exact ⟨_, .delete there, depicts', downloads⟩
  | notDeleted refused runs =>
      rw [Service.deleteFile, refused] at runs
      obtain ⟨⟨⟩, rfl⟩ := Script.runs_pure.1 runs
      exact ⟨outlook, .notDeleted (depicts.file?_eq_none refused)
        (Service.forClient_of_ownedRecord refused), depicts, downloads⟩
  | list => exact ⟨outlook, .list depicts.listed, depicts, downloads⟩
  | wait => exact ⟨_, .wait, depicts.waited _, downloads⟩

theorem Depicts.idles {shelf : ConformingShelf disk root path} {scene scene' : Scene δ}
    {outlook : Outlook} (depicts : Depicts shelf user limit none scene outlook)
    (goes : scene.GoesOn disk scene') : Depicts shelf user limit none scene' outlook := by
  obtain ⟨outlook', course, between⟩ := depicts.goesOn goes
  -- No upload is in a call.
  rcases Relation.ReflTransGen.cases_head course with rfl | ⟨_, ⟨_, ⟨⟩, _⟩, _⟩
  exact between

/-- A conversation goes as the user sees it. -/
theorem Desk.Converses.tells {desk last : Desk δ} {wishes : List Wish} {replies : List Reply}
    {outlook : Outlook} (converses : Desk.Converses disk user limit desk wishes replies last)
    (depicts : Depicts shelf.toConformingShelf user limit none desk.scene outlook)
    (downloads : outlook.downloads = desk.downloads) : outlook.Tells user limit wishes replies := by
  induction converses generalizing outlook with
  | nil => exact .nil
  | cons goes serves _ ih =>
      obtain ⟨next, gives, depicts', same⟩ := serves.gives (depicts.idles goes) downloads goes.2
      exact .cons gives (ih depicts' same)

/-- A scene without uploads, of a store that does not fail. The own files have names
    of blobs. Up to a limit, the identifiers that are to be drawn differ from each
    other and from all that are in use. Of the files of others nothing is asked but
    their identifiers. -/
structure Scene.OpensFor (shelf : CandidShelf disk root path) (user : UserId) (limit : Nat)
    (scene : Scene δ) : Prop where
  uploads : scene.uploads = []
  dropped : scene.dropped = []
  root : scene.service.blobs.root? = root
  path : scene.service.catalog.path? = path
  conduct : scene.service.conduct = {}
  distinct : scene.service.catalog.entries.Distinct
  within : scene.service.ids.used ≤ limit
  injective : ∀ m n, m < limit → n < limit →
    scene.service.ids.tape m = scene.service.ids.tape n → m = n
  named : ∀ id record, scene.service.catalog.file? id = some record → record.owner = user →
    IsBlobName record.blobName
  undrawn : ∀ n, scene.service.ids.used ≤ n → n < limit →
    scene.service.catalog.file? ⟨scene.service.ids.tape n⟩ = none ∧
      ∀ id record, scene.service.catalog.file? id = some record → record.owner = user →
        record.blobName ≠ (scene.service.ids.tape n).toText

/-- A service that can do whatever it is asked for: its configuration has no fault, and
    its stores need not fail. -/
def Scene.Obliges (disk : Disk δ) (root path : Option Path) (scene : Scene δ) : Prop :=
  scene.service.config.fault? = none ∧ ∃ good, disk.Obliges root path good ∧ good scene.disk

/-- What a user sees before asking for anything. -/
def Scene.outlook (shelf : CandidShelf disk root path) (user : UserId) (scene : Scene δ) :
    Outlook where
  service := scene.service
  file? id := (scene.service.catalog.file? id).filter fun record => record.owner = user
  Known name := ∃ id record, scene.service.catalog.file? id = some record ∧
    record.owner = user ∧ record.blobName = name
  blob? := shelf.shows scene

end

section

variable {disk : Disk δ} {disk' : Disk δ'} {root path root' path' : Option Path}
  {shelf : CandidShelf disk root path} {shelf' : CandidShelf disk' root' path'} {user : UserId}
  {limit : Nat} {scene : Scene δ} {scene' : Scene δ'}

/-- Two scenes that are the same for a user: with the same key, with the same own
    records, with the same blobs of these, and with the same to draw. -/
structure Scene.SameFor (shelf : CandidShelf disk root path)
    (shelf' : CandidShelf disk' root' path') (user : UserId) (scene : Scene δ)
    (scene' : Scene δ') : Prop where
  service : scene.service.SameFor user scene'.service
  files : ∀ id record, record.owner = user →
    (scene.service.catalog.file? id = some record ↔ scene'.service.catalog.file? id = some record)
  blobs : ∀ id record, scene.service.catalog.file? id = some record → record.owner = user →
    shelf.shows scene record.blobName = shelf'.shows scene' record.blobName

theorem Scene.SameFor.refl (scene : Scene δ) : scene.SameFor shelf shelf user scene :=
  ⟨⟨rfl, rfl, rfl, rfl, rfl⟩, fun _ _ _ => Iff.rfl, fun _ _ _ _ => rfl⟩

/-- What a user sees of a scene is also what there is in one that is the same for
    the user. -/
theorem Scene.OpensFor.depicts (opens : scene.OpensFor shelf user limit)
    (same : scene.SameFor shelf shelf' user scene') :
    Depicts shelf.toConformingShelf user limit none scene (scene'.outlook shelf' user) where
  root := opens.root
  path := opens.path
  conduct := opens.conduct
  distinct := opens.distinct
  same := same.service
  within := opens.within
  injective := opens.injective
  files id record := by
    simp only [outlook, Option.filter_eq_some_iff, decide_eq_true_eq]
    exact and_congr_left fun owned => (same.files id record owned).symm
  known id record seen := by
    obtain ⟨there, owned⟩ := Option.filter_eq_some_iff.1 seen
    exact ⟨id, record, there, of_decide_eq_true owned, rfl⟩
  downloads := by simp [outlook]
  objects name known := by
    obtain ⟨id, record, there, owned, rfl⟩ := known
    have there := (same.files id record owned).2 there
    exact ⟨opens.named id record there owned, same.blobs id record there owned⟩
  undrawn n later small := by
    obtain ⟨free, unlike⟩ := opens.undrawn n later small
    refine ⟨free, ?_⟩
    rintro ⟨id, record, there, owned, name⟩
    exact unlike id record ((same.files id record owned).2 there) owned name
  dropped := opens.dropped
  single := by simp [opens.uploads]
  shadows := by simp [opens.uploads]

theorem Scene.OpensFor.heeds {good : δ → Prop} (opens : scene.OpensFor shelf user limit)
    (valid : scene.service.config.fault? = none) (fine : good scene.disk) :
    scene.Heeds disk good (scene.outlook shelf user) where
  fine _ := fine
  depth := by
    refine Nat.pos_of_ne_zero fun none => ?_
    simp only [TransferConfig.fault?, none, if_true] at valid
    split at valid
    · cases valid
    · cases valid
  present _ seen := by cases seen
  room := by simp [opens.uploads]
  gate := by simp [opens.uploads]
  flushing := by simp [opens.uploads]

/-- Where one scene grants the wishes of a user, another can that looks the same to
    the user, if its service can do what it is asked for. -/
theorem Desk.Converses.granted {good : δ' → Prop} {desk last : Desk δ} {desk' : Desk δ'}
    {wishes : List Wish} {replies : List Reply} {outlook : Outlook}
    (converses : Desk.Converses disk user limit desk wishes replies last)
    (depicts : Depicts shelf.toConformingShelf user limit none desk.scene outlook)
    (downloads : outlook.downloads = desk.downloads) (obliges : disk'.Obliges root' path' good)
    (depicts' : Depicts shelf'.toConformingShelf user limit none desk'.scene outlook)
    (downloads' : outlook.downloads = desk'.downloads)
    (heeds : desk'.scene.Heeds disk' good outlook) :
    ∃ replies' last', Desk.Converses disk' user limit desk' wishes replies' last' := by
  induction converses generalizing outlook desk' with
  | nil => exact ⟨[], desk', .nil⟩
  | cons goes serves _ ih =>
      obtain ⟨next, gives, after, same⟩ := serves.gives (depicts.idles goes) downloads goes.2
      have thrives := depicts'.thrives heeds
      obtain ⟨reply', between, serves', heeds'⟩ := depicts'.serves obliges downloads' heeds gives
      obtain ⟨next', gives', after', same'⟩ := serves'.gives depicts' downloads' thrives
      obtain rfl := (gives.alike gives').2
      obtain ⟨replies', last', rest⟩ := ih after same after' same' heeds'
      exact ⟨reply' :: replies', last', .cons ⟨.refl, thrives⟩ serves' rest⟩

/-- The files of others cannot be seen and cannot be touched. Two scenes that are the
    same for a user give the user the same replies to the same wishes, as a client is
    told them, whatever files and blobs of others there are, and in whatever order the
    tasks run; and what is granted in the one can be granted in the other, if the
    service there can do what it is asked for. And a file that the user does not own,
    or that is not there, is neither fetched nor deleted: the client is told one and
    the same, and both the service and the disk stay as they are. -/
theorem files_of_others_are_hidden (opens : scene.OpensFor shelf user limit)
    (opens' : scene'.OpensFor shelf' user limit)
    (same : scene.SameFor shelf shelf' user scene') :
    (∀ (wishes : List Wish) (replies replies' : List Reply) (last : Desk δ) (last' : Desk δ'),
      Desk.Converses disk user limit ⟨scene, []⟩ wishes replies last →
        Desk.Converses disk' user limit ⟨scene', []⟩ wishes replies' last' →
          List.Forall₂ Reply.Alike replies replies') ∧
      (scene'.Obliges disk' root' path' →
        ∀ (wishes : List Wish) (replies : List Reply) (last : Desk δ),
          Desk.Converses disk user limit ⟨scene, []⟩ wishes replies last →
            ∃ replies' last', Desk.Converses disk' user limit ⟨scene', []⟩ wishes replies' last') ∧
      ∀ (service : Service) (id : FileId),
        (∀ record, service.catalog.file? id = some record → record.owner ≠ user) →
          (∃ e, e.forClient = .notFound ∧
            Download.start service id user = pure (.error (.failed e), service) ∧
              service.deleteFile id user = pure (.error e, service)) ∧
          (∀ out, Command.runGet service user id out =
            pure (.failed ⟨s!"{id}: {ClientError.notFound.message}", []⟩)) ∧
          Command.runRemove service user id =
            pure (.failed ⟨s!"{id}: {ClientError.notFound.message}", []⟩) := by
  have depicts := opens.depicts same
  have depicts' := opens'.depicts (.refl scene')
  refine ⟨?_, ?_, ?_⟩
  · intro wishes replies replies' last last' converses converses'
    exact (converses.tells depicts rfl).alike (converses'.tells depicts' rfl)
  · rintro ⟨valid, good, obliges, fine⟩ wishes replies last converses
    exact converses.granted depicts rfl obliges depicts' rfl (opens'.heeds valid fine)
  · intro service id foreign
    obtain ⟨e, told, refuses, keeps⟩ := Service.refuses_foreign foreign
    have failure : Command.clientFailure id e =
        ⟨s!"{id}: {ClientError.notFound.message}", []⟩ := by
      rw [Command.clientFailure, told]
    refine ⟨⟨e, told, refuses, keeps⟩, fun out => ?_, ?_⟩
    · rw [Command.runGet, refuses, pure_bind]
      simp only [Outcome.ofHalt, failure]
    · rw [Command.runRemove, keeps, pure_bind]
      simp only [failure]

end

namespace Scene

/-- A file that is not of the user of the sample. -/
def stranger : FileRecord where
  id := ⟨⟨5⟩⟩
  owner := ⟨⟨9⟩⟩
  fileName := "b"
  fileSize := 3
  blobName := Uuid.toText ⟨6⟩
  blobSize := 3
  createdAt := 0

def crowded : Scene FileTree :=
  { sample with
    service :=
      { sample.service with
        blobs := .memory [(stranger.blobName, [1, 2, 3])]
        catalog := .memory { sample.service.catalog.entries with files := [stranger] } } }

theorem file?_crowded (id : FileId) :
    crowded.service.catalog.file? id = if id = stranger.id then some stranger else none := by
  change ([stranger].find? fun file => file.id = id) = _
  by_cases same : stranger.id = id
  · simp [same]
  · simp [same, Ne.symm same]

theorem sample_opensFor :
    sample.OpensFor (CandidShelf.memory FileTree.disk none) ⟨⟨0⟩⟩ 2 where
  uploads := rfl
  dropped := rfl
  root := rfl
  path := rfl
  conduct := rfl
  distinct := ⟨by simp [sample, Catalog.entries], by simp [sample, Catalog.entries]⟩
  within := by decide
  injective := sample_opens.injective
  named _ _ there := by cases there
  undrawn _ _ _ := ⟨rfl, fun _ _ there => by cases there⟩

theorem owner_of_crowded {id : FileId} {record : FileRecord}
    (there : crowded.service.catalog.file? id = some record) : record.owner ≠ ⟨⟨0⟩⟩ := by
  rw [file?_crowded] at there
  split at there
  · cases there
    decide
  · cases there

theorem crowded_opensFor :
    crowded.OpensFor (CandidShelf.memory FileTree.disk none) ⟨⟨0⟩⟩ 2 where
  uploads := rfl
  dropped := rfl
  root := rfl
  path := rfl
  conduct := rfl
  distinct := ⟨sample_opensFor.distinct.users, by simp [crowded, Catalog.entries]⟩
  within := by decide
  injective := sample_opens.injective
  named _ _ there owned := absurd owned (owner_of_crowded there)
  undrawn n _ small := by
    refine ⟨?_, fun _ _ there owned => absurd owned (owner_of_crowded there)⟩
    rw [file?_crowded]
    refine if_neg ?_
    obtain rfl | rfl : n = 0 ∨ n = 1 := by omega
    · decide
    · decide

theorem sample_sameFor_crowded :
    sample.SameFor (CandidShelf.memory FileTree.disk none) (CandidShelf.memory FileTree.disk none)
      ⟨⟨0⟩⟩ crowded where
  service := ⟨rfl, rfl, rfl, rfl, rfl⟩
  files _ _ owned :=
    ⟨fun there => (by cases there), fun there => absurd owned (owner_of_crowded there)⟩
  blobs _ _ there := by cases there

theorem housed_opensFor : housed.OpensFor (CandidShelf.folder _ _) ⟨⟨0⟩⟩ 2 where
  uploads := rfl
  dropped := rfl
  root := rfl
  path := rfl
  conduct := rfl
  distinct := sample_opensFor.distinct
  within := by decide
  injective := sample_opens.injective
  named _ _ there := by cases there
  undrawn _ _ _ := ⟨rfl, fun _ _ there => by cases there⟩

theorem sample_sameFor_housed :
    sample.SameFor (CandidShelf.memory FileTree.disk none) (CandidShelf.folder _ _) ⟨⟨0⟩⟩
      housed where
  service := ⟨rfl, rfl, rfl, rfl, rfl⟩
  files _ _ _ := Iff.rfl
  blobs _ _ there := by cases there

theorem housed_obliges :
    housed.Obliges (Housing.disk _ _) (some ⟨"/lockbox/blobs"⟩)
      (some ⟨"/lockbox/catalog.json"⟩) := by
  refine ⟨rfl, _, Disk.obliges_folder _ _, ?_⟩
  intro file there target beside
  obtain rfl : ⟨"/lockbox/catalog.json"⟩ = file := Option.some.inj there
  rw [List.mem_cons, List.mem_singleton] at beside
  rcases beside with rfl | rfl
  · exact ⟨["lockbox", "catalog.json"], rfl, by decide, by decide⟩
  · exact ⟨["lockbox", "catalog.tmp"], rfl, by decide, by decide⟩

theorem HasOne.thrives {scene : Scene δ} {service : Service} {upload : Upload} {d : δ}
    {chunk payload : Bytes} (one : scene.HasOne service upload d chunk payload)
    (thrives : upload.Thrives) : scene.Thrives := by
  intro other member
  rw [one.uploads, List.mem_singleton] at member
  exact member ▸ thrives

theorem HasOne.calls_write {disk : Disk δ} {scene : Scene δ} {service : Service} {d : δ}
    {chunk payload : Bytes} (one : scene.HasOne service sampleUpload d chunk payload) :
    ∃ scene', scene.Calls disk ⟨⟨0⟩⟩ (.write [1, 2, 3]) (.ok none) scene' := by
  let writing : Upload :=
    { sampleUpload with
      phase := .writing
      encoder := some { sampleEncoder with pending := [1, 2, 3], received := 3 }
      call := .handOff [] }
  let written : Upload := { writing with phase := .receiving, call := .answered (.ok none) }
  obtain ⟨begun, _, begins, midway⟩ : ∃ begun, scene.Conforms 2 _ ∧ scene.Steps disk _ begun ∧ _ :=
    one.steps (.write [1, 2, 3]) service writing d rfl (by simp) trivial (by simp)
      (.write ⟨rfl, by simp [sampleUpload]⟩) (by rw [sample_write]; exact .done)
  obtain ⟨ended, _, ends, behind⟩ : ∃ ended, begun.Conforms 2 _ ∧ begun.Steps disk _ ended ∧ _ :=
    midway.steps .caller service written d rfl (by simp) trivial (by simp [writing]) (.caller rfl)
      .done
  have going : begun.Thrives :=
    midway.thrives ⟨by simp [writing, sampleUpload], by simp [writing]⟩
  have gone : ended.Thrives :=
    behind.thrives ⟨by simp [written, writing, sampleUpload], by simp [written]⟩
  refine ⟨ended, begun, begins, ⟨.single ⟨going, .inr ⟨_, rfl⟩⟩ ends, gone⟩, ?_⟩
  simp only [Transfers.answer?, Transfers.upload?, behind.uploads]
  rfl

/-- A file of somebody else is asked for and is to be deleted, the own files are
    listed, and an upload takes three bytes. -/
def sampleWishes : List Wish :=
  [.download stranger.id, .delete stranger.id, .list, .start "a", .write ⟨⟨0⟩⟩ [1, 2, 3]]

theorem converses_of_refused {disk : Disk δ} {scene : Scene δ} {service : Service} {e : Error}
    (empty : scene.uploads = []) (dropped : scene.dropped = [])
    (refused : scene.service.ownedRecord stranger.id ⟨⟨0⟩⟩ = .error e)
    (started : scene.toTransfers.start ⟨⟨0⟩⟩ "a" = (.ok ⟨⟨0⟩⟩, ⟨service, [sampleUpload]⟩))
    (within : service.ids.used ≤ 2) :
    ∃ last, Desk.Converses disk ⟨⟨0⟩⟩ 2 ⟨scene, []⟩ sampleWishes
      [.opened (.error (.failed e)), .deleted (.error e),
        .listed (scene.service.listFiles ⟨⟨0⟩⟩), .started (.ok ⟨⟨0⟩⟩), .called (.ok none)]
      last := by
  have calm : scene.GoesOn disk scene := by
    refine ⟨.refl, fun upload member => ?_⟩
    rw [empty] at member
    cases member
  have download : Script.Runs disk scene.disk (Download.start scene.service stranger.id ⟨⟨0⟩⟩)
      (.error (.failed e), scene.service) scene.disk := by
    rw [Download.start, refused]
    exact .done
  have delete : Script.Runs disk scene.disk (scene.service.deleteFile stranger.id ⟨⟨0⟩⟩)
      (.error e, scene.service) scene.disk := by
    rw [Service.deleteFile, refused]
    exact .done
  let begun : Scene δ := { scene with toTransfers := ⟨service, [sampleUpload]⟩ }
  have one : begun.HasOne service sampleUpload scene.disk (scene.chunk ⟨⟨0⟩⟩)
      (scene.payload ⟨⟨0⟩⟩) := ⟨rfl, rfl, rfl, dropped, rfl, rfl⟩
  have idle : begun.GoesOn disk begun :=
    ⟨.refl, one.thrives ⟨by simp [sampleUpload], by simp [sampleUpload]⟩⟩
  obtain ⟨last, writes⟩ := one.calls_write
  have starts : Desk.Converses disk ⟨⟨0⟩⟩ 2 ⟨scene, []⟩ [.start "a", .write ⟨⟨0⟩⟩ [1, 2, 3]]
      [.started (.ok ⟨⟨0⟩⟩), .called (.ok none)] ⟨last, []⟩ :=
    .cons calm (.start started within) (.cons idle (.write writes) .nil)
  have deletes : Desk.Serves disk ⟨⟨0⟩⟩ 2 ⟨scene, []⟩ (.delete stranger.id) (.deleted (.error e))
      ⟨scene, []⟩ := .notDeleted refused delete
  have downloads : Desk.Serves disk ⟨⟨0⟩⟩ 2 ⟨scene, []⟩ (.download stranger.id)
      (.opened ((Except.error (Halt.failed e)).map Download.record)) ⟨scene, []⟩ :=
    .download download
  exact ⟨_, .cons calm downloads (.cons calm deletes (.cons calm .list starts))⟩

/-- The user of the sample cannot tell whether there is the file of somebody else, nor
    whether blobs are kept in a folder. -/
theorem stranger_is_hidden :
    sample.OpensFor (CandidShelf.memory FileTree.disk none) ⟨⟨0⟩⟩ 2 ∧
      crowded.OpensFor (CandidShelf.memory FileTree.disk none) ⟨⟨0⟩⟩ 2 ∧
        sample.SameFor (CandidShelf.memory FileTree.disk none)
          (CandidShelf.memory FileTree.disk none) ⟨⟨0⟩⟩ crowded ∧
        crowded.Obliges FileTree.disk none none ∧
        crowded.service.catalog.file? stranger.id = some stranger ∧
        (∃ (replies replies' : List Reply) (last last' : Desk FileTree),
          Desk.Converses FileTree.disk ⟨⟨0⟩⟩ 2 ⟨sample, []⟩ sampleWishes replies last ∧
            Desk.Converses FileTree.disk ⟨⟨0⟩⟩ 2 ⟨crowded, []⟩ sampleWishes replies' last' ∧
              replies ≠ replies' ∧ List.Forall₂ Reply.Alike replies replies') ∧
        (∀ (wishes : List Wish) (replies : List Reply) (last : Desk FileTree),
          Desk.Converses FileTree.disk ⟨⟨0⟩⟩ 2 ⟨sample, []⟩ wishes replies last →
            ∃ replies' last',
              Desk.Converses FileTree.disk ⟨⟨0⟩⟩ 2 ⟨crowded, []⟩ wishes replies' last' ∧
                List.Forall₂ Reply.Alike replies replies') ∧
        Command.runRemove crowded.service ⟨⟨0⟩⟩ stranger.id =
          pure (.failed ⟨s!"{stranger.id}: {ClientError.notFound.message}", []⟩) ∧
        housed.OpensFor (CandidShelf.folder _ _) ⟨⟨0⟩⟩ 2 ∧
        sample.SameFor (CandidShelf.memory FileTree.disk none) (CandidShelf.folder _ _) ⟨⟨0⟩⟩
          housed ∧
        ∀ (wishes : List Wish) (replies : List Reply) (last : Desk FileTree),
          Desk.Converses FileTree.disk ⟨⟨0⟩⟩ 2 ⟨sample, []⟩ wishes replies last →
            ∃ replies' last',
              Desk.Converses (Housing.disk _ _) ⟨⟨0⟩⟩ 2 ⟨housed, []⟩ wishes replies' last' ∧
                List.Forall₂ Reply.Alike replies replies' := by
  have hidden := files_of_others_are_hidden sample_opensFor crowded_opensFor sample_sameFor_crowded
  have kept := files_of_others_are_hidden sample_opensFor housed_opensFor sample_sameFor_housed
  have obliges : crowded.Obliges FileTree.disk none none :=
    ⟨rfl, fun _ => True, Disk.obliges_memory FileTree.disk, trivial⟩
  have absent : sample.service.ownedRecord stranger.id ⟨⟨0⟩⟩ =
      .error (.notFound s!"file {stranger.id}") := rfl
  have foreign : crowded.service.ownedRecord stranger.id ⟨⟨0⟩⟩ =
      .error (.permissionDenied s!"file {stranger.id}") := by
    simp only [Service.ownedRecord, file?_crowded, if_true]
    exact if_neg (by decide)
  have started : crowded.toTransfers.start ⟨⟨0⟩⟩ "a" =
      (.ok ⟨⟨0⟩⟩, ⟨{ crowded.service with ids := sampleService.ids }, [sampleUpload]⟩) := by
    have name : checkFileName "a" = .ok "a" := by rfl
    have key := sample_sameFor_crowded.service.key.symm.trans sample_keyOf
    simp only [Transfers.start, Upload.start, name, key]
    rfl
  obtain ⟨last, converses⟩ := converses_of_refused rfl rfl absent sample_start (Nat.le_refl 2)
  obtain ⟨last', converses'⟩ := converses_of_refused rfl rfl foreign started (Nat.le_refl 2)
  refine ⟨sample_opensFor, crowded_opensFor, sample_sameFor_crowded, obliges, file?_crowded _,
    ⟨_, _, last, last', converses, converses', by simp, hidden.1 _ _ _ _ _ converses converses'⟩,
    fun wishes replies last converses => ?_,
    (hidden.2.2 crowded.service stranger.id fun _ there => owner_of_crowded there).2.2,
    housed_opensFor, sample_sameFor_housed, fun wishes replies last converses => ?_⟩
  · obtain ⟨replies', last', converses'⟩ := hidden.2.1 obliges wishes replies last converses
    exact ⟨replies', last', converses', hidden.1 _ _ _ _ _ converses converses'⟩
  · obtain ⟨replies', last', converses'⟩ :=
      kept.2.1 housed_obliges wishes replies last converses
    exact ⟨replies', last', converses', kept.1 _ _ _ _ _ converses converses'⟩

end Scene

end Strongroom
