import Strongroom.Proofs.Catalog.Calls
import Strongroom.Proofs.Transfer.Outlook

/-! # What a user sees is what there is

A scene in which one user acts is depicted by what that user sees: the own files
and blobs are there as they are seen, and every upload goes along with the one
that is alone. Nothing is asked of what belongs to others, but that fresh
identifiers are not in use. Each step of a task keeps to the picture, or moves
the one upload that is in a call.
-/

namespace Strongroom

variable {δ : Type}

theorem Catalog.entries_of_stageFile {catalog staged : Catalog} {record : FileRecord}
    (stages : catalog.stageFile record = .ok staged) :
    staged.entries = catalog.entries.putFile record := by
  unfold stageFile at stages
  rcases catalog.entries.insertFile_cases record with ⟨inserted, _⟩ | ⟨e, refused, _⟩
  · rw [inserted] at stages
    cases stages
    exact entries_withEntries _ _
  · rw [refused] at stages
    cases stages

theorem Catalog.file?_of_putFile {catalog staged : Catalog} {record : FileRecord}
    (entries : staged.entries = catalog.entries.putFile record) :
    staged.file? = Function.update catalog.file? record.id (some record) := by
  have maps := congrArg Maps.file? (Entries.maps_putFile catalog.entries record)
  rw [← entries] at maps
  exact maps

/-- Services that are set up alike, with the same key for a user, and with the same
    to draw. -/
structure Service.SameFor (user : UserId) (service other : Service) : Prop where
  key : service.keyOf user = other.keyOf user
  config : service.config = other.config
  random : service.random = other.random
  ids : service.ids = other.ids
  clock : service.clock = other.clock

section

variable {disk : Disk δ} {root path : Option Path}

/-- What a user sees of the stores is there. Up to a limit, what is still to be
    drawn is not in use. -/
structure Belongings (shelf : ConformingShelf disk root path) (user : UserId) (limit : Nat)
    (scene : Scene δ) (outlook : Outlook) : Prop where
  root : scene.service.blobs.root? = root
  path : scene.service.catalog.path? = path
  conduct : scene.service.conduct = {}
  distinct : scene.service.catalog.entries.Distinct
  same : scene.service.SameFor user outlook.service
  within : scene.service.ids.used ≤ limit
  injective : ∀ m n, m < limit → n < limit →
    scene.service.ids.tape m = scene.service.ids.tape n → m = n
  files : ∀ id record, outlook.file? id = some record ↔
    scene.service.catalog.file? id = some record ∧ record.owner = user
  known : ∀ id record, outlook.file? id = some record → outlook.Known record.blobName
  downloads : ∀ download ∈ outlook.downloads, outlook.Known download.record.blobName
  objects : ∀ name, outlook.Known name →
    IsBlobName name ∧ shelf.shows scene name = outlook.blob? name
  undrawn : ∀ n, scene.service.ids.used ≤ n → n < limit →
    scene.service.catalog.file? ⟨scene.service.ids.tape n⟩ = none ∧
      ¬ outlook.Known (scene.service.ids.tape n).toText

theorem Footprint.keyOf {disk : Disk δ} {s s' : Spot δ} (footprint : Footprint disk s s')
    (user : UserId) : s'.service.keyOf user = s.service.keyOf user := by
  unfold Service.keyOf Vault.resolve
  rw [footprint.wrappedKey?, footprint.master]

/-- An upload of the scene goes along with the one that the user sees. At most one
    is in a call. -/
structure Shadows (shelf : ConformingShelf disk root path) (user : UserId) (busy : Option FileId)
    (scene : Scene δ) (outlook : Outlook) (upload : Upload) : Prop where
  owner : upload.owner = user
  drawn : ∃ n, n + 1 < scene.service.ids.used ∧ upload.fileId = ⟨scene.service.ids.tape n⟩ ∧
    upload.blobName = (scene.service.ids.tape (n + 1)).toText
  stands : upload.Stands False
  owns : upload.OwnsDraft
  flushing : ∀ record rest, upload.call = .flushing record rest → rest.Asks shelf.Spares
  /-- The name of its blob is not known before the record is filed. -/
  secret : outlook.Known upload.blobName → upload.InCatalog
  free : ¬ upload.InCatalog → scene.service.catalog.file? upload.fileId = none
  ready : upload.IsReady ∨ busy = some upload.fileId
  follows : ∃ alone, outlook.upload? upload.fileId = some alone ∧ alone.IsPlain ∧
    upload.Follows shelf (shelf.shows scene upload.blobName) alone

/-- A scene is what a user sees, together with what the user does not see. -/
structure Depicts (shelf : ConformingShelf disk root path) (user : UserId) (limit : Nat)
    (busy : Option FileId) (scene : Scene δ) (outlook : Outlook) : Prop extends
    Belongings shelf user limit scene outlook where
  dropped : scene.dropped = []
  single : ∀ upload ∈ scene.uploads, ∀ other ∈ scene.uploads,
    upload.fileId = other.fileId → upload = other
  shadows : ∀ upload ∈ scene.uploads, Shadows shelf user busy scene outlook upload

variable {shelf : ConformingShelf disk root path} {user : UserId} {limit : Nat}
  {busy busy' : Option FileId} {scene scene' : Scene δ} {outlook outlook' : Outlook}
  {upload other : Upload}

theorem Shadows.named (shadows : Shadows shelf user busy scene outlook upload) :
    IsBlobName upload.blobName := by
  obtain ⟨n, _, _, name⟩ := shadows.drawn
  exact ⟨_, name⟩

theorem Shadows.aside (shadows : Shadows shelf user busy scene outlook upload)
    (tape : scene'.service.ids.tape = scene.service.ids.tape)
    (more : scene.service.ids.used ≤ scene'.service.ids.used)
    (known : outlook'.Known upload.blobName → outlook.Known upload.blobName)
    (free : scene.service.catalog.file? upload.fileId = none →
      scene'.service.catalog.file? upload.fileId = none)
    (object : ¬ upload.InCatalog →
      shelf.shows scene' upload.blobName = shelf.shows scene upload.blobName)
    (alone : outlook'.upload? upload.fileId = outlook.upload? upload.fileId)
    (ready : upload.IsReady ∨ busy' = some upload.fileId) :
    Shadows shelf user busy' scene' outlook' upload where
  owner := shadows.owner
  drawn := by
    obtain ⟨n, early, id, name⟩ := shadows.drawn
    rw [tape]
    exact ⟨n, by omega, id, name⟩
  stands := shadows.stands
  owns := shadows.owns
  flushing := shadows.flushing
  secret here := shadows.secret (known here)
  free unfiled := free (shadows.free unfiled)
  ready := ready
  follows := by
    obtain ⟨still, here, plain, follows⟩ := shadows.follows
    refine ⟨still, alone.trans here, plain, ?_⟩
    by_cases filed : upload.InCatalog
    · exact follows.of_inCatalog filed plain
    · rw [object filed]
      exact follows

theorem Belongings.quiet (belongings : Belongings shelf user limit scene outlook)
    (rooted : scene'.service.blobs.root? = root)
    (catalog : scene'.service.catalog = scene.service.catalog)
    (conduct : scene'.service.conduct = {})
    (same : scene'.service.SameFor user outlook'.service)
    (tape : scene'.service.ids.tape = scene.service.ids.tape)
    (more : scene.service.ids.used ≤ scene'.service.ids.used)
    (within : scene'.service.ids.used ≤ limit) (file? : outlook'.file? = outlook.file?)
    (known : outlook'.Known = outlook.Known) (blob? : outlook'.blob? = outlook.blob?)
    (downloads : ∀ download ∈ outlook'.downloads, outlook.Known download.record.blobName)
    (objects : ∀ name, outlook.Known name → shelf.shows scene' name = shelf.shows scene name) :
    Belongings shelf user limit scene' outlook' where
  root := rooted
  path := by
    rw [catalog]
    exact belongings.path
  conduct := conduct
  distinct := by
    rw [catalog]
    exact belongings.distinct
  same := same
  within := within
  injective := by
    rw [tape]
    exact belongings.injective
  files := by
    rw [catalog, file?]
    exact belongings.files
  known := by
    rw [file?, known]
    exact belongings.known
  downloads := by
    rw [known]
    exact downloads
  objects := by
    rw [known, blob?]
    intro name here
    obtain ⟨named, shown⟩ := belongings.objects name here
    exact ⟨named, (objects name here).trans shown⟩
  undrawn := by
    rw [tape, catalog, known]
    exact fun n later small => belongings.undrawn n (by omega) small

theorem Belongings.filed {record : FileRecord} {data : Bytes} {id : FileId} {next : Upload}
    (belongings : Belongings shelf user limit scene outlook)
    (rooted : scene'.service.blobs.root? = root) (path : scene'.service.catalog.path? = path)
    (conduct : scene'.service.conduct = {})
    (entries : scene'.service.catalog.entries = scene.service.catalog.entries.putFile record)
    (same : scene'.service.SameFor user outlook.service)
    (ids : scene'.service.ids = scene.service.ids) (owner : record.owner = user)
    (named : IsBlobName record.blobName)
    (fresh : ∀ n, scene.service.ids.used ≤ n → n < limit →
      record.id ≠ ⟨scene.service.ids.tape n⟩ ∧
        record.blobName ≠ (scene.service.ids.tape n).toText)
    (shown : shelf.shows scene' record.blobName = some data)
    (objects : ∀ name, outlook.Known name → shelf.shows scene' name = shelf.shows scene name) :
    Belongings shelf user limit scene'
      ((outlook.file record data).put id outlook.service next) := by
  have file? := Catalog.file?_of_putFile entries
  constructor
  case root => exact rooted
  case path => exact path
  case conduct => exact conduct
  case distinct => exact entries ▸ belongings.distinct.putFile record
  case same => exact same
  case within => exact ids ▸ belongings.within
  case injective => exact ids ▸ belongings.injective
  case files =>
    intro other file
    change Function.update outlook.file? record.id (some record) other = some file ↔
      scene'.service.catalog.file? other = some file ∧ file.owner = user
    rw [file?]
    by_cases this : other = record.id
    · subst this
      rw [Function.update_self, Function.update_self, Option.some.injEq]
      refine ⟨?_, And.left⟩
      rintro rfl
      exact ⟨rfl, owner⟩
    · rw [Function.update_of_ne this, Function.update_of_ne this]
      exact belongings.files other file
  case known =>
    intro other file there
    by_cases this : other = record.id
    · subst this
      cases (Function.update_self ..).symm.trans there
      exact .inl rfl
    · exact .inr (belongings.known other file ((Function.update_of_ne this ..).symm.trans there))
  case downloads => exact fun download present => .inr (belongings.downloads download present)
  case objects =>
    intro other known
    change IsBlobName other ∧ shelf.shows scene' other =
      Function.update outlook.blob? record.blobName (some data) other
    by_cases this : other = record.blobName
    · subst this
      rw [Function.update_self]
      exact ⟨named, shown⟩
    · rw [Function.update_of_ne this]
      have known := known.resolve_left this
      obtain ⟨named, shown⟩ := belongings.objects other known
      exact ⟨named, (objects other known).trans shown⟩
  case undrawn =>
    rw [ids]
    intro n late small
    obtain ⟨free, unknown⟩ := belongings.undrawn n late small
    obtain ⟨unlike, unlike'⟩ := fresh n late small
    refine ⟨?_, fun known => known.elim (fun same => unlike' same.symm) unknown⟩
    rw [file?, Function.update_of_ne unlike.symm]
    exact free

theorem Belongings.deleted {record : FileRecord}
    (belongings : Belongings shelf user limit scene outlook)
    (rooted : scene'.service.blobs.root? = root) (path : scene'.service.catalog.path? = path)
    (conduct : scene'.service.conduct = {})
    (entries : scene'.service.catalog.entries = scene.service.catalog.entries.dropFile record.id)
    (same : scene'.service.SameFor user outlook.service)
    (ids : scene'.service.ids = scene.service.ids)
    (gone : shelf.shows scene' record.blobName = none)
    (objects : ∀ name, outlook.Known name → record.blobName ≠ name →
      shelf.shows scene' name = shelf.shows scene name) :
    Belongings shelf user limit scene' (outlook.drop record) := by
  have file? (other : FileId) : scene'.service.catalog.file? other =
      if other = record.id then none else scene.service.catalog.file? other := by
    rw [Catalog.file?, entries]
    exact Entries.file?_dropFile ..
  constructor
  case root => exact rooted
  case path => exact path
  case conduct => exact conduct
  case distinct => exact entries ▸ belongings.distinct.dropFile record.id
  case same => exact same
  case within => exact ids ▸ belongings.within
  case injective => exact ids ▸ belongings.injective
  case files =>
    intro other file
    change Function.update outlook.file? record.id none other = some file ↔
      scene'.service.catalog.file? other = some file ∧ file.owner = user
    rw [file?]
    by_cases this : other = record.id
    · simp [this]
    · rw [Function.update_of_ne this, if_neg this]
      exact belongings.files other file
  case known =>
    intro other file here
    by_cases this : other = record.id
    · subst this
      cases (Function.update_self ..).symm.trans here
    · exact belongings.known other file ((Function.update_of_ne this ..).symm.trans here)
  case downloads => exact belongings.downloads
  case objects =>
    intro name known
    obtain ⟨named, shown⟩ := belongings.objects name known
    refine ⟨named, ?_⟩
    change shelf.shows scene' name = Function.update outlook.blob? record.blobName none name
    by_cases this : name = record.blobName
    · subst this
      rw [Function.update_self]
      exact gone
    · rw [Function.update_of_ne this]
      exact (objects name known (Ne.symm this)).trans shown
  case undrawn =>
    rw [ids]
    intro n late small
    obtain ⟨free, unknown⟩ := belongings.undrawn n late small
    refine ⟨?_, unknown⟩
    rw [file?, free, ite_self]

namespace Depicts

theorem apart (depicts : Depicts shelf user limit busy scene outlook)
    (member : upload ∈ scene.uploads) (present : other ∈ scene.uploads)
    (different : other.fileId ≠ upload.fileId) : upload.blobName ≠ other.blobName := by
  obtain ⟨m, early, id, name⟩ := (depicts.shadows upload member).drawn
  obtain ⟨n, early', id', name'⟩ := (depicts.shadows other present).drawn
  rw [name, name']
  intro same
  have within := depicts.within
  have same := depicts.injective _ _ (by omega) (by omega) (Uuid.toText_injective same)
  obtain rfl : m = n := by omega
  exact different (id'.trans id.symm)

theorem spent (depicts : Depicts shelf user limit busy scene outlook)
    (member : upload ∈ scene.uploads) {n : Nat} (later : scene.service.ids.used ≤ n)
    (small : n < limit) :
    upload.fileId ≠ ⟨scene.service.ids.tape n⟩ ∧
      upload.blobName ≠ (scene.service.ids.tape n).toText := by
  obtain ⟨m, early, id, name⟩ := (depicts.shadows upload member).drawn
  rw [id, name]
  constructor
  · intro same
    have := depicts.injective _ _ (by omega) small (FileId.mk.inj same)
    omega
  · intro same
    have := depicts.injective _ _ (by omega) small (Uuid.toText_injective same)
    omega

section

variable {before next : Upload} {act : Act} {service : Service} {random : Entropy} {d : δ}

/-- After an act of an upload the scene is depicted again, if what the user sees of
    the stores is there and the upload is shadowed. -/
theorem after (depicts : Depicts shelf user limit busy scene outlook)
    (member : before ∈ scene.uploads) (behaves : before.Behaves act)
    (stays : ∀ inside, act ≠ .drop inside)
    (moves : Moves disk ⟨scene.service, before, scene.disk⟩ act ⟨service, upload, d⟩)
    (belongings : Belongings shelf user limit (scene.after before act service upload d) outlook')
    (others : ∀ other ∈ scene.uploads, other.fileId ≠ before.fileId →
      (outlook'.Known other.blobName → outlook.Known other.blobName) ∧
        (scene.service.catalog.file? other.fileId = none →
          service.catalog.file? other.fileId = none) ∧
          outlook'.upload? other.fileId = outlook.upload? other.fileId ∧
            (other.IsReady ∨ busy' = some other.fileId))
    (secret : outlook'.Known before.blobName → upload.InCatalog)
    (free : ¬ upload.InCatalog → service.catalog.file? before.fileId = none)
    (ready : upload.IsReady ∨ busy' = some before.fileId)
    (follows : ∃ alone, outlook'.upload? before.fileId = some alone ∧ alone.IsPlain ∧
      upload.Follows shelf (shelf.object service.blobs d before.blobName) alone) :
    Depicts shelf user limit busy' (scene.after before act service upload d) outlook' := by
  have shadowed := depicts.shadows before member
  have footprint : Footprint disk ⟨scene.service, before, scene.disk⟩ ⟨service, upload, d⟩ :=
    .of_moves shadowed.owns moves
  have file : before.SameFile upload := footprint.file
  have ids : service.ids = scene.service.ids := footprint.ids
  refine ⟨belongings, ?_, ?_, ?_⟩
  · dsimp only [Scene.after]
    split
    · exact absurd rfl (stays _)
    · exact depicts.dropped
  · intro first present second present' same
    rcases Transfers.mem_store.1 present with ⟨old, different⟩ | ⟨rfl, _⟩
    · rcases Transfers.mem_store.1 present' with ⟨old', _⟩ | ⟨rfl, _⟩
      · exact depicts.single first old second old' same
      · exact absurd same different
    · rcases Transfers.mem_store.1 present' with ⟨_, different⟩ | ⟨rfl, _⟩
      · exact absurd same.symm different
      · rfl
  · intro other present
    rcases Transfers.mem_store.1 present with ⟨old, different⟩ | ⟨rfl, _⟩
    · rw [file.fileId] at different
      obtain ⟨known, absent, puts, calm⟩ := others other old different
      have shadows := depicts.shadows other old
      refine shadows.aside (congrArg IdSupply.tape ids)
        (Nat.le_of_eq (congrArg IdSupply.used ids).symm) known absent (fun _ => ?_) puts calm
      exact shelf.footprint footprint depicts.root shadowed.flushing shadowed.named shadows.named
        (depicts.apart member old different)
    · obtain ⟨n, early, fileId, name⟩ := shadowed.drawn
      constructor
      case owner => exact file.owner.trans shadowed.owner
      case drawn =>
        change ∃ n, n + 1 < service.ids.used ∧ other.fileId = ⟨service.ids.tape n⟩ ∧
          other.blobName = (service.ids.tape (n + 1)).toText
        rw [ids]
        exact ⟨n, early, file.fileId.trans fileId, file.blobName.trans name⟩
      case stands =>
        exact shadowed.stands.moves (fun _ => id) behaves moves id fun inside => stays inside
      case owns => exact shadowed.owns.moves moves
      case flushing => exact moves.flushing depicts.path shadowed.flushing
      case secret => exact fun here => secret (file.blobName ▸ here)
      case free => exact fun unfiled => (congrArg _ file.fileId).trans (free unfiled)
      case ready => exact ready.imp_right fun here => here.trans (congrArg some file.fileId.symm)
      case follows =>
        obtain ⟨alone, here, plain, follows⟩ := follows
        refine ⟨alone, (congrArg _ file.fileId).trans here, plain, ?_⟩
        rw [Shelf.shows, file.blobName]
        exact follows

theorem acts (depicts : Depicts shelf user limit busy scene outlook)
    (member : before ∈ scene.uploads) (behaves : before.Behaves act)
    (stays : ∀ inside, act ≠ .drop inside) (thrives : before.Thrives)
    (moves : Moves disk ⟨scene.service, before, scene.disk⟩ act ⟨service, upload, d⟩)
    (catalog : service.catalog = scene.service.catalog) (conduct : service.conduct = {})
    (clock : service.clock = scene.service.clock)
    (object : outlook.Known before.blobName →
      shelf.object service.blobs d before.blobName = shelf.shows scene before.blobName)
    (plain : next.IsPlain)
    (follows : upload.Follows shelf (shelf.object service.blobs d before.blobName) next)
    (calm : busy' = busy ∨ busy = none)
    (ready : upload.IsReady ∨ busy' = some before.fileId) :
    Depicts shelf user limit busy' (scene.after before act service upload d)
      (outlook.put before.fileId { outlook.service with random := service.random } next) := by
  have shadowed := depicts.shadows before member
  have footprint : Footprint disk ⟨scene.service, before, scene.disk⟩ ⟨service, upload, d⟩ :=
    .of_moves shadowed.owns moves
  have ids : service.ids = scene.service.ids := footprint.ids
  have filed (filed : before.InCatalog) : upload.InCatalog := by
    rcases shadowed.stands.inCatalog_moves (fun _ => id) behaves moves filed with
      filed | ⟨record, e, call, _⟩
    · exact filed
    · exact absurd call (thrives.2 record e)
  have same : service.SameFor user { outlook.service with random := service.random } :=
    ⟨(footprint.keyOf user).trans depicts.same.key, footprint.config.trans depicts.same.config, rfl,
      ids.trans depicts.same.ids, clock.trans depicts.same.clock⟩
  refine depicts.after member behaves stays moves ?_ ?_ (fun here => filed (shadowed.secret here))
    (fun unfiled => ?_) ready ⟨next, Function.update_self .., plain, follows⟩
  · refine depicts.toBelongings.quiet (footprint.sameRoot.trans depicts.root) catalog conduct same
      (congrArg IdSupply.tape ids) (Nat.le_of_eq (congrArg IdSupply.used ids).symm)
      ((congrArg IdSupply.used ids).trans_le depicts.within) rfl rfl rfl depicts.downloads ?_
    intro name here
    by_cases own : before.blobName = name
    · rw [← own]
      exact object (own ▸ here)
    · exact shelf.footprint footprint depicts.root shadowed.flushing shadowed.named
        (depicts.objects name here).1 own
  · intro other old different
    refine ⟨id, fun absent => catalog ▸ absent, Function.update_of_ne different .., ?_⟩
    rcases calm with rfl | idle
    · exact (depicts.shadows other old).ready
    · refine .inl ((depicts.shadows other old).ready.resolve_right fun here => ?_)
      rw [idle] at here
      cases here
  · rw [catalog]
    exact shadowed.free fun was => unfiled (filed was)

theorem filing (depicts : Depicts shelf user limit busy scene outlook)
    (member : before ∈ scene.uploads) {alone : Upload} {record : FileRecord} {data : Bytes}
    {catalog : Catalog} (same : before = alone.beside before.queue before.writer)
    (phase : before.phase = .committing) (unready : ¬ before.IsReady)
    (own : record.id = before.fileId ∧ record.blobName = before.blobName ∧ record.owner = user)
    (staged : scene.service.catalog.stageFile record = .ok catalog)
    (shown : shelf.shows scene before.blobName = some data)
    (here : service = { scene.service.note .insert (toString before.fileId) with catalog })
    (here' : upload = { before with call := .flushing record catalog.flush })
    (moves : Moves disk ⟨scene.service, before, scene.disk⟩ .caller
      ⟨service, upload, scene.disk⟩) :
    Depicts shelf user limit busy (scene.after before .caller service upload scene.disk)
      ((outlook.file record data).put before.fileId outlook.service
        ({ alone with phase := .done }.answer (.ok (some record)))) := by
  obtain ⟨id, name, owner⟩ := own
  have shadowed := depicts.shadows before member
  have footprint := Footprint.of_moves shadowed.owns moves
  have busy := shadowed.ready.resolve_left unready
  have entries := Catalog.entries_of_stageFile staged
  have later (other : FileId) (different : other ≠ before.fileId) :
      catalog.file? other = scene.service.catalog.file? other := by
    rw [Catalog.file?_of_putFile entries, Function.update_of_ne (id ▸ different)]
  subst here here'
  refine depicts.after member trivial (by simp) moves ?_ ?_ (fun _ => .inr ⟨_, _, rfl⟩) ?_
    (.inr busy) ?_
  · exact depicts.toBelongings.filed depicts.root
      ((Catalog.stageFile_ok staged).1.trans depicts.path) depicts.conduct entries
      ⟨(footprint.keyOf user).trans depicts.same.key, depicts.same.config, depicts.same.random,
        depicts.same.ids, depicts.same.clock⟩
      rfl owner (name ▸ shadowed.named)
      (fun n late small => id ▸ name ▸ depicts.spent member late small) (name ▸ shown)
      fun _ _ => rfl
  · intro other old different
    refine ⟨fun known => known.resolve_left ?_, fun absent => (later _ different).trans absent,
      Function.update_of_ne different .., (depicts.shadows other old).ready⟩
    rw [name]
    exact (depicts.apart member old different).symm
  · exact fun unfiled => absurd (.inr ⟨_, _, rfl⟩) unfiled
  · have flushes : catalog.flush.Asks shelf.Spares :=
      shelf.flushing ((Catalog.stageFile_ok staged).1.trans depicts.path)
    refine ⟨_, Function.update_self .., trivial, .files ?_ rfl rfl flushes⟩
    have joins : before.phase = alone.phase := by rw [same]; rfl
    rw [same]
    simp only [Upload.beside, Upload.answer, ← joins, phase]

end

/-- A step of a writer's task is not seen. -/
theorem writerMoves {before : Upload} {service : Service} {d : δ}
    (depicts : Depicts shelf user limit busy scene outlook) (member : before ∈ scene.uploads)
    (thrives : before.Thrives) (thrives' : upload.Thrives)
    (moves : WriterMoves disk ⟨scene.service, before, scene.disk⟩ ⟨service, upload, d⟩) :
    Depicts shelf user limit busy (scene.after before .writer service upload d) outlook := by
  have shadowed := depicts.shadows before member
  obtain ⟨alone, here, plain, follows⟩ := shadowed.follows
  obtain ⟨goes, same⟩ := moves.same
  obtain ⟨conduct, random, catalog, clock⟩ := Upload.quiet_writerMoves moves depicts.conduct
  have follows := follows.writerMoves (s := ⟨scene.service, before, scene.disk⟩) shadowed.stands
    depicts.conduct depicts.root shadowed.named shadowed.owns moves thrives'
  have unknown : ¬ outlook.Known before.blobName := by
    intro known
    obtain ⟨size, ended⟩ := shadowed.stands.stored (shadowed.secret known)
    rw [ended] at goes
    cases goes
  have ready : upload.IsReady ∨ busy = some before.fileId := by
    have same : upload = { before with queue := upload.queue, writer := upload.writer } := same
    rw [same]
    exact shadowed.ready
  have behaves : before.Behaves .writer := trivial
  have acted := depicts.acts member behaves (by simp) thrives (.writer moves) catalog conduct clock
    (fun known => absurd known unknown) plain follows (.inl rfl) ready
  have random : service.random = outlook.service.random := random.trans depicts.same.random
  rw [random] at acted
  exact Outlook.put_self here ▸ acted

/-- A step of the caller's task goes along with one that the user sees, or with
    none. -/
theorem callerStep {before : Upload} {script : Script (Service × Upload)} {service : Service}
    {d : δ} (depicts : Depicts shelf user limit busy scene outlook)
    (member : before ∈ scene.uploads) (thrives : before.Thrives)
    (offered : before.callerStep scene.service = some script)
    (runs : Script.Runs disk scene.disk script (service, upload) d) :
    ∃ outlook', (before.InCatalog ∧ outlook' = outlook ∨
        outlook.advance before.fileId = some outlook') ∧
      busy = some before.fileId ∧
        Depicts shelf user limit busy (scene.after before .caller service upload d) outlook' := by
  have shadowed := depicts.shadows before member
  obtain ⟨alone, here, plain, follows⟩ := shadowed.follows
  have moves : Moves disk ⟨scene.service, before, scene.disk⟩ .caller ⟨service, upload, d⟩ :=
    moves_of_offers (.caller offered) runs
  have unready : ¬ before.IsReady := fun ready => by
    rw [Upload.callerStep_of_isReady ready] at offered
    cases offered
  have busy := shadowed.ready.resolve_left unready
  have behaves : before.Behaves .caller := trivial
  have mimics := follows.callerStep (s := ⟨scene.service, before, scene.disk⟩) plain shadowed.stands
    thrives depicts.same.random depicts.same.clock depicts.conduct shadowed.free offered runs
  cases mimics with
  | flushes filed same follows' spares =>
      obtain rfl : service = scene.service := same
      have acted := depicts.acts member behaves (by simp) thrives moves rfl depicts.conduct rfl ?_
        plain follows' (.inl rfl) (.inr busy)
      · rw [depicts.same.random] at acted
        exact ⟨outlook, .inl ⟨filed, rfl⟩, busy, Outlook.put_self here ▸ acted⟩
      · intro known
        rcases spares with rfl | ⟨step, reply, spares, replied⟩
        · rfl
        · exact spares depicts.root shadowed.named replied
  | moves unfiled joins step plain' random catalog conduct clock follows' =>
      have acted := depicts.acts member behaves (by simp) thrives moves catalog
        (conduct.trans depicts.conduct) clock (fun known => absurd (shadowed.secret known) unfiled)
        plain' follows' (.inl rfl) (.inr busy)
      refine ⟨_, .inr (Outlook.advance_of_moves here joins step), busy, ?_⟩
      have random : service.random = _ := random
      rw [← random]
      exact acted
  | files unfiled call staged shown same =>
      have beside := follows.beside_of_unfiled unfiled
      have midway := shadowed.stands.midway
      have joins : before.call = .joinForSize _ := (congrArg Upload.call beside).trans call
      rw [joins] at midway
      have own : alone.fileId = before.fileId ∧ alone.blobName = before.blobName ∧
          alone.owner = before.owner := by
        rw [beside]
        exact ⟨rfl, rfl, rfl⟩
      cases same
      exact ⟨_, .inr (Outlook.advance_of_files here call), busy,
        depicts.filing member beside midway.1 unready
          ⟨own.1, own.2.1, own.2.2.trans shadowed.owner⟩ staged shown rfl rfl moves⟩

end Depicts

end

end Strongroom
