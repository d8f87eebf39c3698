import Strongroom.Proofs.Transfer.Depiction

/-! # A user's own files

A file is deleted, fetched and listed for its owner, and to anybody else it is as
if it were not there: the service looks neither at the key nor at the blob of a
file before it knows that the user owns it.
-/

namespace Strongroom

variable {δ : Type}

namespace Service

variable {service : Service} {id : FileId} {user : UserId} {record : FileRecord} {e : Error}

theorem ownedRecord_eq_ok :
    service.ownedRecord id user = .ok record ↔
      service.catalog.file? id = some record ∧ record.owner = user := by
  unfold ownedRecord
  cases service.catalog.file? id with
  | none => simp
  | some file =>
      dsimp only
      split
      · rename_i owned
        simp only [Except.ok.injEq, Option.some.injEq]
        refine ⟨?_, And.left⟩
        rintro rfl
        exact ⟨rfl, owned⟩
      · rename_i other
        simp only [reduceCtorEq, Option.some.injEq, false_iff, not_and]
        rintro rfl
        exact other

/-- Whether a file belongs to someone else or is not there, a client is told the
    same. -/
theorem forClient_of_ownedRecord (refused : service.ownedRecord id user = .error e) :
    e.forClient = .notFound := by
  unfold ownedRecord at refused
  split at refused
  · cases refused
    rfl
  · split at refused
    · cases refused
    · cases refused
      rfl

/-- A file that the user does not own is neither looked at nor touched. -/
theorem refuses_foreign
    (foreign : ∀ record, service.catalog.file? id = some record → record.owner ≠ user) :
    ∃ e, e.forClient = .notFound ∧
      Download.start service id user = pure (.error (.failed e), service) ∧
        service.deleteFile id user = pure (.error e, service) := by
  cases owned : service.ownedRecord id user with
  | ok record =>
      obtain ⟨there, own⟩ := ownedRecord_eq_ok.1 owned
      exact absurd own (foreign record there)
  | error e =>
      refine ⟨e, forClient_of_ownedRecord owned, ?_, ?_⟩
      · rw [Download.start, owned]
      · rw [deleteFile, owned]

end Service

namespace Depicts

variable {disk : Disk δ} {root path : Option Path} {shelf : ConformingShelf disk root path}
  {user : UserId} {limit : Nat} {busy : Option FileId} {scene : Scene δ}
  {outlook outlook' : Outlook} {service : Service} {id : FileId} {record : FileRecord} {d : δ}

theorem ownedRecord_iff (depicts : Depicts shelf user limit busy scene outlook) :
    scene.service.ownedRecord id user = .ok record ↔ outlook.file? id = some record :=
  Service.ownedRecord_eq_ok.trans (depicts.files id record).symm

theorem file?_eq_none (depicts : Depicts shelf user limit busy scene outlook) {e : Error}
    (refused : scene.service.ownedRecord id user = .error e) : outlook.file? id = none := by
  cases seen : outlook.file? id with
  | none => rfl
  | some record => cases refused.symm.trans (depicts.ownedRecord_iff.2 seen)

theorem beside (depicts : Depicts shelf user limit busy scene outlook)
    (belongings : Belongings shelf user limit { scene with service, disk := d } outlook')
    (ids : service.ids = scene.service.ids) (known : outlook'.Known = outlook.Known)
    (upload? : outlook'.upload? = outlook.upload?)
    (free : ∀ id, scene.service.catalog.file? id = none → service.catalog.file? id = none)
    (object : ∀ upload ∈ scene.uploads, ¬ upload.InCatalog →
      shelf.object service.blobs d upload.blobName = shelf.shows scene upload.blobName) :
    Depicts shelf user limit busy { scene with service, disk := d } outlook' := by
  refine ⟨belongings, depicts.dropped, depicts.single, fun upload member => ?_⟩
  have shadows := depicts.shadows upload member
  refine shadows.aside (congrArg IdSupply.tape ids) (Nat.le_of_eq (congrArg IdSupply.used ids).symm)
    (fun here => ?_) (free _) (object upload member) (congrFun upload? _) shadows.ready
  rw [known] at here
  exact here

theorem looks (depicts : Depicts shelf user limit busy scene outlook)
    (catalog : service.catalog = scene.service.catalog)
    (conduct : service.conduct = scene.service.conduct) (ids : service.ids = scene.service.ids)
    (blobs : service.blobs = scene.service.blobs)
    (same : service.SameFor user outlook'.service)
    (looks : d = scene.disk ∨ scene.service.blobs.Looks disk scene.disk d)
    (file? : outlook'.file? = outlook.file?) (known : outlook'.Known = outlook.Known)
    (blob? : outlook'.blob? = outlook.blob?) (upload? : outlook'.upload? = outlook.upload?)
    (downloads : ∀ download ∈ outlook'.downloads, outlook.Known download.record.blobName) :
    Depicts shelf user limit busy { scene with service, disk := d } outlook' := by
  have object {name : String} (named : IsBlobName name) :
      shelf.object service.blobs d name = shelf.shows scene name := by
    rw [blobs]
    rcases looks with rfl | looks
    · rfl
    · exact shelf.looking depicts.root named looks
  refine depicts.beside ?_ ids known upload? (fun id absent => catalog ▸ absent)
    fun upload member _ => object (depicts.shadows upload member).named
  exact depicts.toBelongings.quiet (blobs ▸ depicts.root) catalog (conduct.trans depicts.conduct)
    same (congrArg IdSupply.tape ids) (Nat.le_of_eq (congrArg IdSupply.used ids).symm)
    ((congrArg IdSupply.used ids).trans_le depicts.within) file? known blob? downloads
    fun name here => object (depicts.objects name here).1

theorem deleted {service' : Service} {d' : δ}
    (depicts : Depicts shelf user limit none scene outlook)
    (deletes : Script.Runs disk scene.disk (scene.service.deleteRecord id user)
      (.ok record, service) d)
    (removes : Script.Runs disk d (service.removeBlob record.blobName) (.ok (), service') d') :
    outlook.file? id = some record ∧
      Depicts shelf user limit none { scene with service := service', disk := d' }
        (outlook.drop record) := by
  obtain ⟨catalog, journal, rfl, flushes, path, users, _, outcome⟩ :=
    Service.runs_deleteRecord deletes
  obtain ⟨_, ⟨⟩, ⟨there, rfl, owned⟩, files, _⟩ | ⟨e, ⟨⟩, _⟩ := outcome
  obtain ⟨blobs, rfl, failed | removed⟩ := Service.runs_removeBlob removes
  · obtain ⟨e, ⟨⟩, _⟩ := failed
  have entries : catalog.entries = scene.service.catalog.entries.dropFile record.id := by
    generalize catalog.entries = entries at users files
    cases entries
    cases users
    cases files
    rfl
  have seen : outlook.file? record.id = some record :=
    (depicts.files _ _).2 ⟨depicts.distinct.file?_eq_some.2 ⟨there, rfl⟩, owned⟩
  have known := depicts.known _ _ seen
  have named := (depicts.objects _ known).1
  have object {name : String} (other : IsBlobName name) (different : record.blobName ≠ name) :
      shelf.object blobs d' name = shelf.shows scene name := by
    have left := shelf.elsewhere depicts.root named other different (.remove removed)
    exact left.trans (shelf.flushes depicts.root other (depicts.path ▸ flushes))
  refine ⟨seen, depicts.beside ?_ rfl rfl rfl (fun other absent => ?_)
    fun upload member unfiled => ?_⟩
  · refine depicts.toBelongings.deleted ((BlobStore.root?_remove removed).trans depicts.root)
      (path.trans depicts.path) depicts.conduct entries ?_ rfl
      (shelf.removed depicts.root named removed (.inl rfl))
      fun name here different => object (depicts.objects name here).1 different
    refine ⟨Eq.trans ?_ depicts.same.key, depicts.same.config, depicts.same.random,
      depicts.same.ids, depicts.same.clock⟩
    simp only [Service.keyOf, Vault.resolve, Service.note, Catalog.wrappedKey?,
      Entries.wrappedKey?, Entries.user?, users]
  · change catalog.entries.file? other = none
    rw [entries, Entries.file?_dropFile]
    exact (if_congr Iff.rfl rfl absent).trans (ite_self _)
  · refine object (depicts.shadows upload member).named fun same => ?_
    exact unfiled ((depicts.shadows upload member).secret (same ▸ known))

theorem listed (depicts : Depicts shelf user limit busy scene outlook) :
    { file? := outlook.file? : Maps }.IsListing user (scene.service.listFiles user) := by
  have listing := Entries.isListing_filesOf depicts.distinct user
  refine ⟨listing.once, fun file => ?_, listing.sorted⟩
  rw [show outlook.file? file.id = some file ↔ _ from depicts.files file.id file, and_assoc,
    and_self]
  exact listing.owned file

theorem waited (depicts : Depicts shelf user limit busy scene outlook) (clock : Nat) :
    Depicts shelf user limit busy
      { scene with service := { scene.service with clock } }
      { outlook with service := { outlook.service with clock } } := by
  have same := depicts.same
  exact depicts.looks rfl rfl rfl rfl ⟨same.key, same.config, same.random, same.ids, rfl⟩ (.inl rfl)
    rfl rfl rfl rfl depicts.downloads

end Depicts

theorem Outlook.record_of_openFile {outlook : Outlook} {record : FileRecord} {download : Download}
    (opened : outlook.openFile record = .ok download) : download.record = record := by
  unfold openFile at opened
  split at opened
  · cases opened
  · split at opened
    · cases opened
    · split at opened
      · cases opened
      · cases opened
        rfl

theorem Download.record_advance (download : Download) :
    download.advance.2.record = download.record := by
  unfold advance
  split
  · rfl
  · split
    · rfl
    · rfl
    · split
      · rfl
      · rfl

theorem Outlook.record_load (outlook : Outlook) (download : Download) :
    (outlook.load download).record = download.record := by
  unfold load
  split
  · rfl
  · rfl

namespace Depicts

variable {disk : Disk δ} {root path : Option Path} {shelf : CandidShelf disk root path}
  {user : UserId} {limit : Nat} {busy : Option FileId} {scene : Scene δ} {outlook : Outlook}
  {service : Service} {id : FileId} {d : δ}

theorem opened {result : Except Halt Download}
    (depicts : Depicts shelf.toConformingShelf user limit busy scene outlook)
    (runs : Script.Runs disk scene.disk (Download.start scene.service id user)
      (result, service) d) :
    (outlook.file? id = none ∧ (∃ e, result = .error (.failed e) ∧ e.forClient = .notFound) ∧
        Depicts shelf.toConformingShelf user limit busy { scene with service, disk := d } outlook) ∨
      ∃ record, outlook.file? id = some record ∧ result = outlook.openFile record ∧
        Depicts shelf.toConformingShelf user limit busy { scene with service, disk := d }
          { outlook with downloads := outlook.downloads ++ result.toOption.toList } := by
  have still (downloads : List Download)
      (known : ∀ download ∈ downloads, outlook.Known download.record.blobName) :
      Depicts shelf.toConformingShelf user limit busy { scene with service, disk := d }
        { outlook with downloads } := by
    rcases Download.runs_start runs with ⟨rfl, rfl⟩ | ⟨name, rfl, looks⟩
    · exact depicts.looks rfl rfl rfl rfl depicts.same (.inl rfl) rfl rfl rfl rfl known
    · have same := depicts.same
      exact depicts.looks rfl rfl rfl rfl ⟨same.key, same.config, same.random, same.ids, same.clock⟩
        (.inr looks) rfl rfl rfl rfl known
  cases owned : scene.service.ownedRecord id user with
  | error e =>
      rw [Download.start, owned] at runs
      obtain ⟨⟨⟩, _⟩ := Script.runs_pure.1 runs
      exact .inl ⟨depicts.file?_eq_none owned,
        ⟨e, rfl, Service.forClient_of_ownedRecord owned⟩, still _ depicts.downloads⟩
  | ok record =>
      have seen := depicts.ownedRecord_iff.1 owned
      have known := depicts.known _ _ seen
      obtain ⟨named, shown⟩ := depicts.objects _ known
      obtain ⟨there, own⟩ := Service.ownedRecord_eq_ok.1 owned
      have same : result = outlook.openFile record := by
        rw [Download.start, owned] at runs
        unfold Outlook.openFile
        dsimp only at runs
        rw [own, depicts.same.key] at runs
        rw [own, ← depicts.same.config, ← shown]
        cases key : outlook.service.keyOf user with
        | error e =>
            rw [key] at runs
            obtain ⟨⟨⟩, _⟩ := Script.runs_pure.1 runs
            rfl
        | ok key' =>
            rw [key] at runs
            obtain ⟨found, d', looked, rest⟩ := Script.runs_bind.1 runs
            cases object : shelf.shows scene record.blobName with
            | none =>
                obtain rfl := shelf.unfound depicts.root named object looked
                obtain ⟨⟨⟩, _⟩ := Script.runs_pure.1 rest
                rw [(Entries.mem_of_file? there).2]
                rfl
            | some data =>
                obtain rfl := shelf.found depicts.root named object looked
                dsimp only at rest ⊢
                split at rest
                · rename_i large
                  obtain ⟨⟨⟩, _⟩ := Script.runs_pure.1 rest
                  exact (if_pos large).symm
                · rename_i small
                  obtain ⟨⟨⟩, _⟩ := Script.runs_pure.1 rest
                  exact (if_neg small).symm
      refine .inr ⟨record, seen, same, still _ fun download member => ?_⟩
      rcases List.mem_append.1 member with old | new
      · exact depicts.downloads download old
      · have opened : outlook.openFile record = .ok download := by
          rw [← same]
          cases result with
          | error halt => cases new
          | ok fresh =>
              rw [List.mem_singleton.1 new]
        rw [Outlook.record_of_openFile opened]
        exact known

theorem read {index : Nat} {download later : Download} {result : Except Error (Option Bytes)}
    (depicts : Depicts shelf.toConformingShelf user limit busy scene outlook)
    (there : outlook.downloads[index]? = some download)
    (runs : Script.Runs disk scene.disk (download.next scene.service) (result, later) d) :
    (outlook.load download).advance = (result, later) ∧
      Depicts shelf.toConformingShelf user limit busy { scene with disk := d }
        { outlook with downloads := outlook.downloads.set index later } := by
  have known := depicts.downloads download (List.mem_of_getElem? there)
  obtain ⟨named, shown⟩ := depicts.objects _ known
  obtain ⟨loaded, d', loads, rest⟩ := Script.runs_bind.1 runs
  obtain ⟨reads, rfl⟩ := Script.runs_pure.1 rest
  have same : loaded = outlook.load download := by
    unfold Download.load at loads
    unfold Outlook.load
    split at loads
    · rename_i opened
      obtain ⟨rfl, _⟩ := Script.runs_pure.1 loads
      rw [if_pos opened]
    · rename_i fresh
      rw [if_neg fresh, ← shown]
      obtain ⟨found, d₁, read, rest⟩ := Script.runs_bind.1 loads
      cases object : shelf.shows scene download.record.blobName with
      | none =>
          obtain rfl := shelf.ungiven depicts.root named object read
          obtain ⟨piece, d₂, given, rest⟩ := Script.runs_bind.1 rest
          obtain ⟨rfl, rfl⟩ := Script.runs_pure.1 given
          exact (Script.runs_pure.1 rest).1
      | some data =>
          obtain rfl := shelf.given depicts.root named object read
          obtain ⟨piece, d₂, given, rest⟩ := Script.runs_bind.1 rest
          obtain ⟨rfl, rfl⟩ := Script.runs_pure.1 given
          exact (Script.runs_pure.1 rest).1
  rw [same] at reads
  refine ⟨reads.symm, depicts.looks rfl rfl rfl rfl depicts.same (Download.runs_load loads) rfl rfl
    rfl rfl fun other member => ?_⟩
  rcases List.mem_or_eq_of_mem_set member with old | rfl
  · exact depicts.downloads other old
  · have record := Download.record_advance (outlook.load download)
    rw [← reads, Outlook.record_load] at record
    rw [record]
    exact known

end Depicts

end Strongroom
